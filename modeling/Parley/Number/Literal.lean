import Parley.Number.Digits
import Parley.Number.Double
import Parley.Text.Blank
import Parley.Text.Digit

/-!
# Number literals in settings

The texts that settings accept as numbers. Spaces around the literal do not count, the digits may
be those of any script, and single underscores may separate digits. The information separators,
blank elsewhere, are no spaces here.

* an integer is an optional sign and digits;
* a decimal has an optional sign, digits on at least one side of an optional point, and an
  optional exponent; `nan`, `inf` and `infinity` are decimals too, whatever their case.
-/

namespace Parley.Number

open Parley.Text

/-- A character of a literal: the digits of every script count as the plain ones. -/
def plainDigit (c : Char) : Char :=
  match digitValue? c with
  | some d => Char.ofNat ('0'.toNat + d)
  | none => c

def isMargin (c : Char) : Bool :=
  isBlank c && !(0x1c ≤ c.toNat && c.toNat ≤ 0x1f)

/-- A literal without its margins and with plain digits. -/
def normalize (text : List Char) : List Char :=
  (trim isMargin text).map plainDigit

/-- Removes single underscores between two digits; any other underscore makes the literal
unreadable. The first argument tells whether the character before is a digit. -/
def dropUnderscores : Bool → List Char → Option (List Char)
  | _, [] => some []
  | afterDigit, '_' :: c :: rest =>
    if afterDigit && c.isDigit then (dropUnderscores true rest).map (c :: ·) else none
  | _, '_' :: [] => none
  | _, c :: rest => (dropUnderscores c.isDigit rest).map (c :: ·)

/-- A sign and what follows it; `true` stands for minus. -/
def splitSign : List Char → Bool × List Char
  | '-' :: rest => (true, rest)
  | '+' :: rest => (false, rest)
  | cs => (false, cs)

/-- Reads an integer literal; one with too many digits cannot be read. -/
def readInt? (text : List Char) : Option Int :=
  match dropUnderscores false (normalize text) with
  | none => none
  | some cs =>
    let (negative, digits) := splitSign cs
    if digits ≠ [] ∧ digits.all Char.isDigit ∧ digits.length ≤ digitLimit then
      some (if negative then -(ofDigits digits : Int) else ofDigits digits)
    else none

/-- Reads the exponent of a decimal; nothing at all means zero. -/
def readExponent? : List Char → Option Int
  | [] => some 0
  | c :: rest =>
    if c = 'e' ∨ c = 'E' then
      let (negative, digits) := splitSign rest
      if digits ≠ [] ∧ digits.all Char.isDigit then
        some (if negative then -(ofDigits digits : Int) else ofDigits digits)
      else none
    else none

/-- Reads an unsigned decimal of digits, point and exponent. -/
def readMagnitude? (negative : Bool) (cs : List Char) : Option Double :=
  let whole := cs.takeWhile Char.isDigit
  let rest := cs.dropWhile Char.isDigit
  let (places, rest) := match rest with
    | '.' :: r => (r.takeWhile Char.isDigit, r.dropWhile Char.isDigit)
    | r => ([], r)
  if whole = [] ∧ places = [] then none
  else
    (readExponent? rest).map fun e =>
      Double.ofScientific negative (ofDigits (whole ++ places)) (e - places.length)

def readDouble? (text : List Char) : Option Double :=
  match dropUnderscores false (normalize text) with
  | none => none
  | some cs =>
    let (negative, body) := splitSign cs
    let word := String.ofList (body.map Char.toLower)
    if word = "inf" ∨ word = "infinity" then some (Double.infinity negative)
    else if word = "nan" then some Double.nan
    else readMagnitude? negative body

end Parley.Number
