import Parley.Number.Double

/-!
# Shortest decimals

The decimal text of a binary floating-point number is the shortest one that reads back as the
same number, and among those of that length the nearest. The reals that round to the number
`m * 2 ^ q` form an interval around it, whose ends belong to it exactly when `m` is even. For each
count of digits the decimals with that many digits form a grid, and if a grid has a point in the
interval then one of the two grid points next to the number is in it, so only those are tried.
-/

namespace Parley.Double

open Number (powNum powDen)

/-- The reals that round to a number, in units of `1 / scale`: the number itself, the two ends,
and whether the ends belong to the interval. -/
structure Interval where
  value : Nat
  low : Nat
  high : Nat
  scale : Nat
  closed : Bool

/-- The interval of a positive finite number. Below a power of two the neighbouring numbers are
twice as dense, so the lower end is nearer there. -/
def interval (x : Double) : Interval :=
  let m := x.significand
  let e := x.exponent - 2
  let up := powNum 2 e
  let below := if x.fraction = 0 ∧ 1 < x.exponentField then 1 else 2
  { value := 4 * m * up
    low := (4 * m - below) * up
    high := (4 * m + 2) * up
    scale := powDen 2 e
    closed := m % 2 = 0 }

/-- Decimal digits with the place of the decimal point: `0.digits * 10 ^ point`. -/
structure Decimal where
  digits : Nat
  point : Int
deriving DecidableEq, Repr

def Interval.contains (i : Interval) (d : Nat) (k : Int) : Bool :=
  let n := d * i.scale * powNum 10 k
  let p := powDen 10 k
  if i.closed then i.low * p ≤ n && n ≤ i.high * p else i.low * p < n && n < i.high * p

/-- The grid point with step `10 ^ k` that lies in the interval and is nearest to the number, a
tie going to the even one. -/
def Interval.nearest? (i : Interval) (k : Int) : Option Nat :=
  let unit := i.scale * powNum 10 k
  let value := i.value * powDen 10 k
  let down := value / unit
  let rest := 2 * (value % unit)
  let candidates :=
    if rest < unit ∨ (rest = unit ∧ down % 2 = 0) then [down, down + 1] else [down + 1, down]
  candidates.find? fun d => 0 < d && i.contains d k

/-- The place of the decimal point: the least `k` with the number below `10 ^ k`, searched from a
guess that is at most two too low. -/
def Interval.point (i : Interval) : Int :=
  let guess : Int := ((Nat.log2 i.value : Int) - Nat.log2 i.scale - 1) * 30103 / 100000
  let reached (k : Int) : Bool := i.value * powDen 10 k < i.scale * powNum 10 k
  ([guess - 1, guess, guess + 1, guess + 2].find? reached).getD (guess + 3)

def dropZeros : Nat → Nat → Nat
  | 0, d => d
  | fuel + 1, d => if d ≠ 0 ∧ d % 10 = 0 then dropZeros fuel (d / 10) else d

def digitCount (d : Nat) : Nat :=
  (Nat.toDigits 10 d).length

/-- The grids to try, from the coarsest to the finest, by the exponents of their steps. -/
def grids (x : Double) : List Int :=
  let p := x.interval.point
  (List.range 17).map fun n => p - (n + 1 : Nat)

/-- The point of a grid that reads back as the number, if there is one. -/
def onGrid (x : Double) (k : Int) : Option (Nat × Int) :=
  (x.interval.nearest? k).map fun d => (d, k)

/-- The shortest decimal that reads back as a positive finite number. -/
def shortest (x : Double) : Decimal :=
  match x.grids.findSome? x.onGrid with
  | some (d, k) => ⟨dropZeros 20 d, k + digitCount d⟩
  | none => ⟨0, 1⟩

end Parley.Double
