import Parley.Number.Shortest

/-!
# Layout of floating-point numbers

How the shortest digits of a number are laid out as text: which magnitudes are written
positionally, how the exponent looks, and what stands for the values that are no numbers.
-/

namespace Parley.Double

/-- The texts of the values that have no digits. -/
structure SpecialTexts where
  nan : String
  infinity : String
  negativeInfinity : String

def SpecialTexts.shown : SpecialTexts := ⟨"nan", "inf", "-inf"⟩

/-- The special values as interchange texts write them. -/
def SpecialTexts.interchange : SpecialTexts := ⟨"NaN", "Infinity", "-Infinity"⟩

/-- Whether a number with its decimal point at this place is written positionally: from one
ten-thousandth up to, but not including, ten to the sixteenth. -/
def positional (point : Int) : Bool :=
  -4 < point && point ≤ 16

/-- Digits written positionally, with at least one digit on each side of the point. -/
def layoutPositional (digits : List Char) (point : Int) : List Char :=
  if point ≤ 0 then '0' :: '.' :: (List.replicate (-point).toNat '0' ++ digits)
  else
    let n := point.toNat
    if n < digits.length then digits.take n ++ '.' :: digits.drop n
    else digits ++ List.replicate (n - digits.length) '0' ++ ['.', '0']

/-- Digits written with one digit before the point and a signed exponent of at least two digits. -/
def layoutExponent (digits : List Char) (point : Int) : List Char :=
  let e := point - 1
  let mark := Nat.toDigits 10 e.natAbs
  let mantissa := match digits with
    | d :: (r :: rs) => d :: '.' :: r :: rs
    | ds => ds
  mantissa ++ 'e' :: (if e < 0 then '-' else '+') ::
    (if mark.length < 2 then '0' :: mark else mark)

def layoutMagnitude (x : Double) : List Char :=
  if x.isZero then ['0', '.', '0']
  else
    let d := x.shortest
    let digits := Nat.toDigits 10 d.digits
    if positional d.point then layoutPositional digits d.point else layoutExponent digits d.point

def layout (special : SpecialTexts) (x : Double) : List Char :=
  if x.isFinite then
    if x.negative then '-' :: x.layoutMagnitude else x.layoutMagnitude
  else if x.isNaN then special.nan.toList
  else if x.negative then special.negativeInfinity.toList
  else special.infinity.toList

end Parley.Double
