import Parley.Value.Equality

/-!
# Fingerprints of keys

A key is found by its fingerprint: values that are the same have the same one, and a few that are
not the same share one all the same. A number is found by its residue modulo the prime
`2 ^ 61 - 1`, taken of its magnitude and given its sign, the residue of minus one being minus two;
the empty text by zero; an object by what identifies it, whatever its kind. A NaN is found by
nothing.
-/

namespace Parley

inductive Fingerprint where
  | nothing
  | number (n : Int)
  | text (s : String)
  | group (parts : List Fingerprint)
  | unfindable

namespace Fingerprint

mutual

def same : Fingerprint → Fingerprint → Bool
  | .nothing, .nothing => true
  | .number m, .number n => m == n
  | .text s, .text t => s == t
  | .group as, .group bs => sameParts as bs
  | _, _ => false

def sameParts : List Fingerprint → List Fingerprint → Bool
  | [], [] => true
  | a :: as, b :: bs => same a b && sameParts as bs
  | _, _ => false

end

def modulus : Nat := 0x1fffffffffffffff

/-- The fingerprint of a number with this sign and residue. -/
def ofResidue (negative : Bool) (residue : Nat) : Fingerprint :=
  let n : Int := if negative then -residue else residue
  .number (if n = -1 then -2 else n)

def ofInt (n : Int) : Fingerprint :=
  ofResidue (n < 0) (n.natAbs % modulus)

def infinite : Nat := 314159

/-- The fingerprint of a floating-point number. Powers of two repeat with period 61. -/
def ofDouble (x : Double) : Fingerprint :=
  if x.isNaN then .unfindable
  else if x.isFinite then
    ofResidue x.negative (x.significand * Number.powNum 2 (x.exponent % 61) % modulus)
  else ofResidue x.negative infinite

def ofText (s : String) : Fingerprint :=
  if s = "" then .number 0 else .text s

end Fingerprint

namespace Value

mutual

/-- The fingerprint of a value that can serve as a key. A list is found by its items, as the call
list of a message is. -/
def fingerprint : Value → Fingerprint
  | .null => .nothing
  | .bool b => .ofInt (if b then 1 else 0)
  | .int n => .ofInt n
  | .float x => .ofDouble x
  | .str s => .ofText s
  | .list items => .group (itemFingerprints items)
  | .dict _ => .unfindable
  | .object kind fields => .group (fieldFingerprints kind fields)

def itemFingerprints : List Value → List Fingerprint
  | [] => []
  | v :: rest => v.fingerprint :: itemFingerprints rest

/-- The fingerprints of the attributes that identify an object. -/
def fieldFingerprints (kind : ObjectKind) : List (String × Value) → List Fingerprint
  | [] => []
  | (name, v) :: rest =>
    if isIncidental kind name then fieldFingerprints kind rest
    else v.fingerprint :: fieldFingerprints kind rest

end

/-- Whether two values are found by the same fingerprint. -/
def sameKey (a b : Value) : Bool :=
  a.fingerprint.same b.fingerprint

end Value

end Parley
