/-!
# Digit texts

Natural numbers as texts of plain decimal digits. Texts are read as integers and integers written
as texts up to a limit of digits, which keeps the time for it in bounds.
-/

namespace Parley.Number

def digits (n : Nat) : List Char :=
  Nat.toDigits 10 n

def ofDigits (ds : List Char) : Nat :=
  ds.foldl (fun n c => 10 * n + (c.toNat - '0'.toNat)) 0

/-- An integer in decimal digits, with a minus if it is negative. -/
def intText (n : Int) : List Char :=
  if n < 0 then '-' :: digits n.natAbs else digits n.natAbs

/-- The count of digits up to which integers are read and written. -/
def digitLimit : Nat := 4300

/-- Whether an integer has few enough digits to be read and written. -/
def isShort (n : Int) : Bool :=
  decide ((digits n.natAbs).length ≤ digitLimit)

end Parley.Number
