/-!
# Binary floating-point numbers

Numbers of the 64-bit binary format, held by their bit patterns, so that two of them are the same
datum exactly when their patterns agree. A finite number is `± significand * 2 ^ exponent`; all
questions about its value are answered on these integers.

`Double.ofRatio` rounds an exact quotient to the nearest number of the format, a tie to the even
significand, and is the one place where numbers are made from decimal texts and integers.
-/

namespace Parley

def Number.powNum (b : Nat) (e : Int) : Nat :=
  Nat.pow b e.toNat

def Number.powDen (b : Nat) (e : Int) : Nat :=
  Nat.pow b (-e).toNat

open Number (powNum powDen)

/-- A number of the 64-bit binary floating-point format. -/
structure Double where
  bits : UInt64
deriving DecidableEq, Inhabited, Repr

namespace Double

/-! ## Parts of a number -/

def negative (x : Double) : Bool :=
  0x8000000000000000 ≤ x.bits.toNat

/-- The bits below the sign bit, which order the magnitudes. -/
def magnitude (x : Double) : Nat :=
  x.bits.toNat % 0x8000000000000000

def exponentField (x : Double) : Nat :=
  x.magnitude / 0x10000000000000

def fraction (x : Double) : Nat :=
  x.magnitude % 0x10000000000000

def isFinite (x : Double) : Bool :=
  x.exponentField < 0x7ff

def isNaN (x : Double) : Bool :=
  x.exponentField = 0x7ff && x.fraction ≠ 0

def isZero (x : Double) : Bool :=
  x.magnitude = 0

def significand (x : Double) : Nat :=
  if x.exponentField = 0 then x.fraction else x.fraction + 0x10000000000000

/-- The power of two that scales the significand of a finite number. -/
def exponent (x : Double) : Int :=
  if x.exponentField = 0 then -1074 else (x.exponentField : Int) - 1075

/-! ## Making numbers -/

def ofMagnitude (negative : Bool) (magnitude : Nat) : Double :=
  ⟨UInt64.ofNat ((if negative then 0x8000000000000000 else 0) + magnitude)⟩

def infinity (negative : Bool) : Double :=
  ofMagnitude negative 0x7ff0000000000000

def nan : Double :=
  ofMagnitude false 0x7ff8000000000000

/-- A quotient rounded to the nearest integer, a tie to the even one. -/
def roundDiv (num den : Nat) : Nat :=
  let q := num / den
  let r := 2 * (num % den)
  if r < den then q
  else if den < r then q + 1
  else q + q % 2

/-- A quotient scaled down by a power of two and rounded. -/
def roundScaled (num den : Nat) (e : Int) : Nat :=
  roundDiv (num * powDen 2 e) (den * powNum 2 e)

/-- The exponent at which the quotient, rounded down, has exactly 53 binary digits, but at least
the smallest exponent of the format. -/
def ratioExponent (num den : Nat) : Int :=
  let guess : Int := (Nat.log2 num : Int) - Nat.log2 den - 52
  let low : Bool := num * powDen 2 guess < den * powNum 2 guess * 0x10000000000000
  max (if low then guess - 1 else guess) (-1074)

/-- The number nearest to `num / den`; too large a quotient gives an infinity. -/
def ofRatio (negative : Bool) (num den : Nat) : Double :=
  if num = 0 ∨ den = 0 then ofMagnitude negative 0
  else
    let e := ratioExponent num den
    let magnitude := (e + 1074).toNat * 0x10000000000000 + roundScaled num den e
    if 0x7ff0000000000000 ≤ magnitude then infinity negative else ofMagnitude negative magnitude

def ofInt (n : Int) : Double :=
  ofRatio (n < 0) n.natAbs 1

/-- The number nearest to `digits * 10 ^ exponent`. Exponents far beyond the format's range are
decided without computing the power. -/
def ofScientific (negative : Bool) (digits : Nat) (exponent : Int) : Double :=
  let size : Int := Nat.log2 digits
  if digits = 0 then ofMagnitude negative 0
  else if exponent > 400 then infinity negative
  else if exponent < -400 ∧ size < -3 * exponent - 1200 then ofMagnitude negative 0
  else ofRatio negative (digits * powNum 10 exponent) (powDen 10 exponent)

/-! ## Comparison and addition -/

/-- Whether two numbers are equal as numbers: the zeros are, a NaN equals nothing. -/
def same (x y : Double) : Bool :=
  !x.isNaN && !y.isNaN && (x == y || (x.isZero && y.isZero))

def sameInt (x : Double) (n : Int) : Bool :=
  x.isFinite &&
    let m : Int := if x.negative then -x.significand else x.significand
    m * powNum 2 x.exponent == n * powDen 2 x.exponent

/-- The sum, rounded as the format's arithmetic rounds it. -/
def add (x y : Double) : Double :=
  ⟨(Float.ofBits x.bits + Float.ofBits y.bits).toBits⟩

end Double

end Parley
