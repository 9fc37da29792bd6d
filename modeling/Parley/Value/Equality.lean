import Parley.Value.Basic

/-!
# Sameness of values

When two values count as the same: numbers by their value across integers, floating-point numbers
and booleans, dictionaries whatever the order of their fields, objects of one kind by their
attributes. `hashable` tells which values can serve as keys; what identifies a message leaves its
metadata out.
-/

namespace Parley.Value

def int? : Value → Option Int
  | .bool b => some (if b then 1 else 0)
  | .int n => some n
  | _ => none

def sameScalar (a b : Value) : Bool :=
  match a, b with
  | .null, .null => true
  | .str s, .str t => s == t
  | .float x, .float y => x.same y
  | .float x, b => match b.int? with
    | some n => x.sameInt n
    | none => false
  | a, .float y => match a.int? with
    | some n => y.sameInt n
    | none => false
  | a, b => match a.int?, b.int? with
    | some m, some n => m == n
    | _, _ => false

mutual

def same : Value → Value → Bool
  | .list as, .list bs => sameItems as bs
  | .dict as, .dict bs => as.length == bs.length && sameFields as bs
  | .object k as, .object l bs =>
    k.unmarked == l.unmarked && as.length == bs.length && sameFields as bs
  | .list _, _ => false
  | .dict _, _ => false
  | .object _ _, _ => false
  | a, b => sameScalar a b

/-- Whether two lists have the same items in the same order. -/
def sameItems : List Value → List Value → Bool
  | [], [] => true
  | a :: as, b :: bs => same a b && sameItems as bs
  | _, _ => false

/-- Whether each field of the first is there, and the same, in the second. -/
def sameFields : List (String × Value) → List (String × Value) → Bool
  | [], _ => true
  | (k, v) :: rest, bs =>
    (match bs.lookup k with
      | some w => same v w
      | none => false) && sameFields rest bs

end

/-- The attributes of a message that do not identify it. -/
def isIncidental (kind : ObjectKind) (name : String) : Bool :=
  kind.isMessage && name == "metadata"

mutual

/-- Whether a value can serve as a key. A vendor's object cannot; the call list of a message can if
its calls can. -/
def hashable : Value → Bool
  | .list _ => false
  | .dict _ => false
  | .object .operation _ => true
  | .object kind fields => kind != .vendor && hashableFields kind fields
  | _ => true

def hashableItems : List Value → Bool
  | [] => true
  | v :: rest => hashable v && hashableItems rest

/-- Whether all identifying attributes of an object can serve as keys. -/
def hashableFields (kind : ObjectKind) : List (String × Value) → Bool
  | [] => true
  | (k, v) :: rest =>
    (isIncidental kind k ||
      (match kind.isMessage && k == "tool_calls", v with
        | true, .list calls => hashableItems calls
        | _, v => hashable v)) &&
    hashableFields kind rest

end

end Parley.Value
