import Parley.Number.Digits
import Parley.Value.Basic

/-!
# Reading interchange text

The reader of the texts in which arguments, results and schemas travel. The language is that of
JSON with three more numbers (`NaN`, `Infinity`, `-Infinity`); a repeated key keeps its first place
and its last value; integers are exact and a number with a point or an exponent is a floating-point
number. An integer with more digits than the limit cannot be read, although its syntax is right.

A reading function returns what it read and the rest of the text. A failure remembers how much of
the text was left, from which `read` computes line, column and offset.
-/

namespace Parley.Json

/-! ## Failures -/

inductive Reason where
  | value
  | propertyName
  | colon
  | comma
  | unterminatedString
  | controlCharacter
  | escape
  | unicodeEscape
  | extraData
  | byteOrderMark
  /-- The text is right, but an integer in it has too many digits. -/
  | tooManyDigits
deriving DecidableEq, Repr

def Reason.text : Reason → String
  | .value => "Expecting value"
  | .propertyName => "Expecting property name enclosed in double quotes"
  | .colon => "Expecting ':' delimiter"
  | .comma => "Expecting ',' delimiter"
  | .unterminatedString => "Unterminated string starting at"
  | .controlCharacter => "Invalid control character at"
  | .escape => "Invalid \\escape"
  | .unicodeEscape => "Invalid \\uXXXX escape"
  | .extraData => "Extra data"
  | .byteOrderMark => "Unexpected UTF-8 BOM (decode using utf-8-sig)"
  | .tooManyDigits => "Exceeds the limit for integer string conversion"

/-- A failure, with the count of characters that were left where it happened. -/
structure Failure where
  reason : Reason
  left : Nat
deriving DecidableEq, Repr

/-- A failure with its place in the text: lines and columns count from one, the offset counts
characters from zero. -/
structure SyntaxError where
  reason : Reason
  line : Nat
  column : Nat
  offset : Nat
deriving DecidableEq, Repr

/-- Whether the text is right but cannot be read, because an integer in it has too many digits. -/
def SyntaxError.isTooLong (e : SyntaxError) : Bool :=
  e.reason == .tooManyDigits

def SyntaxError.message (e : SyntaxError) : String :=
  e.reason.text ++ ": line " ++ toString e.line ++ " column " ++ toString e.column ++
    " (char " ++ toString e.offset ++ ")"

/-- The place of a failure in a text. Lines end at line feeds only. -/
def Failure.locate (text : List Char) (f : Failure) : SyntaxError :=
  let offset := text.length - f.left
  let before := text.take offset
  { reason := f.reason
    line := before.count '\n' + 1
    column := (before.reverse.takeWhile (· ≠ '\n')).length + 1
    offset := offset }

/-! ## Tokens -/

def isSpace (c : Char) : Bool :=
  c = ' ' || c = '\t' || c = '\n' || c = '\r'

def skip (cs : List Char) : List Char :=
  cs.dropWhile isSpace

def hexValue? (c : Char) : Option Nat :=
  if '0' ≤ c ∧ c ≤ '9' then some (c.toNat - '0'.toNat)
  else if 'a' ≤ c ∧ c ≤ 'f' then some (c.toNat - 'a'.toNat + 10)
  else if 'A' ≤ c ∧ c ≤ 'F' then some (c.toNat - 'A'.toNat + 10)
  else none

def hexUnit? (a b c d : Char) : Option Nat := do
  let a ← hexValue? a
  let b ← hexValue? b
  let c ← hexValue? c
  let d ← hexValue? d
  return ((a * 16 + b) * 16 + c) * 16 + d

def isHighSurrogate (n : Nat) : Bool :=
  0xd800 ≤ n && n < 0xdc00

def isLowSurrogate (n : Nat) : Bool :=
  0xdc00 ≤ n && n < 0xe000

/-- The character of a code unit that stands alone; half a pair becomes the replacement
character. -/
def unitChar (n : Nat) : Char :=
  if isHighSurrogate n || isLowSurrogate n then Char.ofNat 0xfffd else Char.ofNat n

def pairChar (high low : Nat) : Char :=
  Char.ofNat (0x10000 + (high - 0xd800) * 0x400 + (low - 0xdc00))

def simpleEscape? (c : Char) : Option Char :=
  if c = '"' ∨ c = '\\' ∨ c = '/' then some c
  else if c = 'b' then some '\x08'
  else if c = 'f' then some '\x0c'
  else if c = 'n' then some '\n'
  else if c = 'r' then some '\r'
  else if c = 't' then some '\t'
  else none

def consChar (c : Char) (r : Except Failure (List Char × List Char)) :
    Except Failure (List Char × List Char) :=
  r.map fun p => (c :: p.1, p.2)

/-- Reads the inside of a string up to its closing quote. The first argument is the count of
characters left at the opening quote. A code-point escape needs a character after it, and a high
surrogate joins with a low one that follows at once. -/
def readString (start : Nat) : List Char → Except Failure (List Char × List Char)
  | [] => .error ⟨.unterminatedString, start⟩
  | '"' :: rest => .ok ([], rest)
  | '\\' :: 'u' :: a :: b :: c :: d :: '\\' :: 'u' :: e :: f :: g :: h :: x :: rest =>
    match hexUnit? a b c d with
    | none => .error ⟨.unicodeEscape, rest.length + 12⟩
    | some high =>
      if isHighSurrogate high then
        match hexUnit? e f g h with
        | none => .error ⟨.unicodeEscape, rest.length + 6⟩
        | some low =>
          if isLowSurrogate low then consChar (pairChar high low) (readString start (x :: rest))
          else
            consChar (unitChar high)
              (readString start ('\\' :: 'u' :: e :: f :: g :: h :: x :: rest))
      else
        consChar (unitChar high)
          (readString start ('\\' :: 'u' :: e :: f :: g :: h :: x :: rest))
  | '\\' :: 'u' :: a :: b :: c :: d :: x :: rest =>
    match hexUnit? a b c d with
    | none => .error ⟨.unicodeEscape, rest.length + 6⟩
    | some n => consChar (unitChar n) (readString start (x :: rest))
  | '\\' :: 'u' :: rest => .error ⟨.unicodeEscape, rest.length + 1⟩
  | '\\' :: [] => .error ⟨.unterminatedString, start⟩
  | '\\' :: c :: rest =>
    match simpleEscape? c with
    | some e => consChar e (readString start rest)
    | none => .error ⟨.escape, rest.length + 2⟩
  | c :: rest =>
    if c.toNat < 0x20 then .error ⟨.controlCharacter, rest.length + 1⟩
    else consChar c (readString start rest)

/-! ## Numbers -/

/-- The digits of a whole number: a zero alone, or digits that start with another. -/
def readWhole : List Char → List Char × List Char
  | [] => ([], [])
  | c :: rest =>
    if c = '0' then (['0'], rest)
    else ((c :: rest).takeWhile Char.isDigit, (c :: rest).dropWhile Char.isDigit)

/-- The digits after a decimal point, if a point and a digit come next. -/
def readPlaces (cs : List Char) : List Char × List Char :=
  match cs with
  | '.' :: d :: rest =>
    if d.isDigit then ((d :: rest).takeWhile Char.isDigit, (d :: rest).dropWhile Char.isDigit)
    else ([], cs)
  | _ => ([], cs)

/-- Whether a minus sign comes next, and what follows the sign if there is one. -/
def readSign : List Char → Bool × List Char
  | '-' :: rest => (true, rest)
  | '+' :: rest => (false, rest)
  | cs => (false, cs)

def readExponent (cs : List Char) : Option Int × List Char :=
  match cs with
  | c :: rest =>
    if c = 'e' ∨ c = 'E' then
      let (negative, body) := readSign rest
      let ds := body.takeWhile Char.isDigit
      if ds = [] then (none, cs)
      else
        let e : Int := Number.ofDigits ds
        (some (if negative then -e else e), body.dropWhile Char.isDigit)
    else (none, cs)
  | [] => (none, cs)

def readMagnitude? (negative : Bool) (cs : List Char) : Option (Value × List Char) :=
  let (whole, rest) := readWhole cs
  if whole = [] then none
  else
    let (places, rest) := readPlaces rest
    let (exponent, rest) := readExponent rest
    if places = [] ∧ exponent = none then
      let n : Int := Number.ofDigits whole
      some (.int (if negative then -n else n), rest)
    else
      let digits := Number.ofDigits (whole ++ places)
      let scale := exponent.getD 0 - places.length
      some (.float (Double.ofScientific negative digits scale), rest)

def readNumber? : List Char → Option (Value × List Char)
  | '-' :: rest => readMagnitude? true rest
  | cs => readMagnitude? false cs

def words : List (List Char × Value) := [
  ("null".toList, .null), ("true".toList, .bool true), ("false".toList, .bool false),
  ("NaN".toList, .float Double.nan), ("Infinity".toList, .float (Double.infinity false)),
  ("-Infinity".toList, .float (Double.infinity true))]

/-- Whether a scalar is an integer with too many digits to be read. -/
def isTooLong : Value → Bool
  | .int n => !Number.isShort n
  | _ => false

def readScalar (cs : List Char) : Except Failure (Value × List Char) :=
  match words.find? fun w => w.1.isPrefixOf cs with
  | some (word, v) => .ok (v, cs.drop word.length)
  | none =>
    match readNumber? cs with
    | some (v, rest) =>
      if isTooLong v then .error ⟨.tooManyDigits, cs.length⟩ else .ok (v, rest)
    | none => .error ⟨.value, cs.length⟩

/-! ## Values -/

/-- The fields that members give: a repeated key keeps its first place and its last value. -/
def fieldsOf (members : List (String × Value)) : Fields :=
  members.foldl (fun fs m => Fields.put fs m.1 m.2) []

mutual

/-- Reads a value. The first argument bounds the depth of the calls: an opening bracket is one
character and two calls, so twice the length of the text and one more is enough for any text. -/
def readValue : Nat → List Char → Except Failure (Value × List Char)
  | 0, cs => .error ⟨.value, cs.length⟩
  | fuel + 1, cs =>
    match cs with
    | '"' :: rest => do
      let (s, rest) ← readString (rest.length + 1) rest
      return (.str (String.ofList s), rest)
    | '[' :: rest =>
      match skip rest with
      | ']' :: rest => .ok (.list [], rest)
      | rest => do
        let (items, rest) ← readItems fuel rest
        return (.list items, rest)
    | '{' :: rest =>
      match skip rest with
      | '}' :: rest => .ok (.dict [], rest)
      | rest => do
        let (members, rest) ← readMembers fuel rest
        return (.dict (fieldsOf members), rest)
    | cs => readScalar cs

/-- Reads the items of a list that has at least one, and its closing bracket. -/
def readItems : Nat → List Char → Except Failure (List Value × List Char)
  | 0, cs => .error ⟨.value, cs.length⟩
  | fuel + 1, cs => do
    let (v, rest) ← readValue fuel cs
    match skip rest with
    | ']' :: rest => return ([v], rest)
    | ',' :: rest => do
      let (vs, rest) ← readItems fuel (skip rest)
      return (v :: vs, rest)
    | rest => throw ⟨.comma, rest.length⟩

/-- Reads the members of a dictionary that has at least one, and its closing brace. -/
def readMembers : Nat → List Char → Except Failure (List (String × Value) × List Char)
  | 0, cs => .error ⟨.propertyName, cs.length⟩
  | fuel + 1, cs =>
    match cs with
    | '"' :: rest => do
      let (key, rest) ← readString (rest.length + 1) rest
      match skip rest with
      | ':' :: rest => do
        let (v, rest) ← readValue fuel (skip rest)
        match skip rest with
        | '}' :: rest => return ([(String.ofList key, v)], rest)
        | ',' :: rest => do
          let (members, rest) ← readMembers fuel (skip rest)
          return ((String.ofList key, v) :: members, rest)
        | rest => throw ⟨.comma, rest.length⟩
      | rest => throw ⟨.colon, rest.length⟩
    | cs => throw ⟨.propertyName, cs.length⟩

end

/-- A depth of calls that is enough to read the value at the start of a text. -/
def depthOf (text : List Char) : Nat :=
  2 * text.length + 1

/-- Reads a text that holds one value and nothing else. -/
def readText (text : List Char) : Except Failure Value :=
  match text with
  | '\ufeff' :: _ => .error ⟨.byteOrderMark, text.length⟩
  | _ => do
    let (v, rest) ← readValue (depthOf (skip text)) (skip text)
    match skip rest with
    | [] => return v
    | rest => throw ⟨.extraData, rest.length⟩

def read (text : String) : Except SyntaxError Value :=
  (readText text.toList).mapError (Failure.locate text.toList)

end Parley.Json
