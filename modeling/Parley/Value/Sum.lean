import Parley.Fault
import Parley.Value.Equality

/-!
# Sums of counts

Token counts come from vendors, so the sum of two is taken over whatever they sent: integers and
booleans add exactly, a floating-point number makes the sum one, texts and lists join. Any other
pair has no sum, and an integer beyond the floating-point range cannot be added to such a number.
-/

namespace Parley.Value

def toDouble (v : Value) : Outcome Double :=
  match v with
  | .float x => .ok x
  | v =>
    match v.int? with
    | none => misuse .kind
    | some n =>
      let x := Double.ofInt n
      if x.isFinite then .ok x else misuse .range

def isFloat : Value → Bool
  | .float _ => true
  | _ => false

def add (a b : Value) : Outcome Value :=
  match a, b with
  | .str s, .str t => .ok (.str (s ++ t))
  | .list as, .list bs => .ok (.list (as ++ bs))
  | a, b =>
    match a.int?, b.int? with
    | some m, some n => .ok (.int (m + n))
    | m, n =>
      if (a.isFloat || m.isSome) && (b.isFloat || n.isSome) then do
        let x ← a.toDouble
        let y ← b.toDouble
        return .float (x.add y)
      else misuse .kind

@[simp] theorem add_int (m n : Int) : add (.int m) (.int n) = .ok (.int (m + n)) := rfl

end Parley.Value
