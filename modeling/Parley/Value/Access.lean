import Parley.Fault
import Parley.Value.Equality

/-!
# Looking into values

The ways in which the library takes a value apart. Each fails with the misuse that fits: a
dictionary look-up needs a dictionary, an attribute an object that has it, iteration a list, a text
(by character) or a dictionary (by key). An object is known by its attributes alone, so one of a
vendor's can stand where a message or a call is only read.

`Value.field` is the tolerant reader of vendor data: it reads dictionaries and objects alike and
treats an absent field, a null one and an unreadable holder the same way.
-/

namespace Parley.Value

/-! ## Fields -/

def intPart? (n : Int) (name : String) : Option Value :=
  match name with
  | "real" => some (.int n)
  | "imag" => some (.int 0)
  | "numerator" => some (.int n)
  | "denominator" => some (.int 1)
  | _ => none

def doublePart? (x : Double) (name : String) : Option Value :=
  match name with
  | "real" => some (.float x)
  | "imag" => some (.float (.ofMagnitude false 0))
  | _ => none

/-- Whether an entry of a metadata dictionary counts as something, if it is a dictionary. -/
def flag? (metadata : Value) (name : String) : Option Value :=
  match metadata with
  | .dict fields => some (.bool (Fields.value fields name).truthy)
  | _ => none

/-- An attribute of a message that follows from its others. -/
def derived? (fields : Fields) (name : String) : Option Value :=
  match name with
  | "has_tool_calls" => some (.bool (fields.value "tool_calls").truthy)
  | "is_stream_chunk" => flag? (fields.value "metadata") name
  | "is_complete" => flag? (fields.value "metadata") name
  | _ => none

/-- An operation of a text or a list, which stands under its name like an attribute. Of the names
that the library looks for, `index` is the only one that both have. -/
def operation? (v : Value) (name : String) : Option Value :=
  if name = "index" then some (.object .operation [("name", .str name), ("self", v)]) else none

def attribute? (v : Value) (name : String) : Option Value :=
  match v with
  | .object kind fields =>
    (fields.lookup name).or (if kind.isMessage then derived? fields name else none)
  | .bool b => intPart? (if b then 1 else 0) name
  | .int n => intPart? n name
  | .float x => doublePart? x name
  | .str _ => v.operation? name
  | .list _ => v.operation? name
  | _ => none

def attr (v : Value) (name : String) : Outcome Value :=
  match v.attribute? name with
  | some w => .ok w
  | none => misuse .member

def spelled (v : Value) : Outcome String :=
  if v.printable then .ok v.plain else misuse .content

@[simp] theorem spelled_str (s : String) : (Value.str s).spelled = .ok s := rfl

/-- What can be shown is spelled as it is shown. -/
theorem spelled_of_printable {v : Value} (h : v.printable = true) : v.spelled = .ok v.plain := by
  rw [spelled, if_pos h]

/-- Calls a method that the value does not have. An attribute of that name does not help, because
none can be called. -/
def callMissing {α : Type} (v : Value) (method : String) : Outcome α := do
  let _ ← v.attr method
  misuse .kind

/-- The field of a dictionary under a key, if it is there. -/
def get? (v : Value) (key : String) : Outcome (Option Value) :=
  match v with
  | .dict fields => .ok (fields.lookup key)
  | v => v.callMissing "get"

/-- The field of a dictionary under a key, null if it is not there. -/
def get (v : Value) (key : String) : Outcome Value :=
  return (← v.get? key).getD .null

/-- A field of a dictionary or an attribute of anything else, if it is there. -/
def part? (v : Value) (name : String) : Option Value :=
  match v with
  | .dict fields => fields.lookup name
  | v => v.attribute? name

/-- The first of the named fields that is there and not null, else the default. -/
def field (v : Value) (names : List String) (default : Value) : Value :=
  (names.findSome? fun name => (v.part? name).filter fun w => !w.isNull).getD default

/-- The field of the given name, null if it is not there. -/
def read (v : Value) (name : String) : Value :=
  v.field [name] .null

/-! ## Sequences -/

def characters (s : String) : List Value :=
  s.toList.map fun c => .str (String.singleton c)

def items : Value → Outcome (List Value)
  | .list items => .ok items
  | .dict fields => .ok (fields.map fun f => .str f.1)
  | .str s => .ok (characters s)
  | _ => misuse .kind

def size (v : Value) : Outcome Nat :=
  return (← v.items).length

/-- The item at a position. A dictionary is looked up by key instead, and no key is a number. -/
def item (v : Value) (position : Nat) : Outcome Value :=
  match v with
  | .dict _ => misuse .key
  | _ => do
    match (← v.items)[position]? with
    | some w => return w
    | none => misuse .index

/-- The texts of a list of values joined without anything between them. -/
def joinTexts (vs : List Value) : Outcome String :=
  match vs.mapM text? with
  | some texts => .ok (String.join texts)
  | none => misuse .kind

/-! ## Dictionaries from pairs -/

/-- The entries of a dictionary under construction with `key` set to `v`; a key that is there
already, the same as a value, keeps its place and spelling. -/
def putEntry : List (Value × Value) → Value → Value → List (Value × Value)
  | [], key, v => [(key, v)]
  | (k, w) :: rest, key, v =>
    if k.same key then (k, v) :: rest else (k, w) :: putEntry rest key v

/-- The key and the value that a pair of a sequence of pairs gives. -/
def pairOf (v : Value) : Outcome (Value × Value) := do
  match ← v.items with
  | [key, w] => if key.hashable then return (key, w) else misuse .kind
  | _ => misuse .content

/-- The key text under which a scalar stands in a dictionary of the interchange format. -/
def keyText : Value → Outcome String
  | .str s => .ok s
  | .null => .ok "null"
  | .bool b => .ok (if b then "true" else "false")
  | .int n => .ok (String.ofList (Number.intText n))
  | .float x => .ok (String.ofList (x.layout .interchange))
  | _ => misuse .kind

/-- The dictionary that a value gives: a dictionary itself, or the one made from a sequence of
pairs. -/
def toFields (v : Value) : Outcome Fields :=
  match v with
  | .dict fields => .ok fields
  | _ => do
    let pairs ← (← v.items).mapM pairOf
    let entries := pairs.foldl (fun es p => putEntry es p.1 p.2) []
    entries.mapM fun e => return (← keyText e.1, e.2)

end Parley.Value
