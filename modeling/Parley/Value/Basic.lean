import Parley.Number.Double

/-!
# Values

The dynamic data of a conversation: contents, metadata, schemas, vendor replies and the arguments
of tool calls. A value is a scalar, a list, a dictionary whose fields keep the order in which they
were put, or an object: a record with named attributes, either one of the library's own (a
message, a tool call, …) or an object of a vendor's client library.

Objects are told apart from dictionaries throughout: a dictionary is looked up by key, an object
by attribute, and only the former counts as a mapping.
-/

namespace Parley

/-- What the record behind an object is. -/
inductive ObjectKind where
  | message
  /-- A message that may stand at several places of a conversation. All places with one mark hold
  one and the same message. -/
  | shared (mark : Nat)
  | call
  | tool
  | usage
  | vendor
  /-- An operation of a value, which a look-up by attribute finds like a part of it. -/
  | operation
deriving DecidableEq, Repr

def ObjectKind.isMessage : ObjectKind → Bool
  | .message => true
  | .shared _ => true
  | _ => false

/-- The kind without what tells one message from another. -/
def ObjectKind.unmarked : ObjectKind → ObjectKind
  | .shared _ => .message
  | kind => kind

inductive Value where
  | null
  | bool (b : Bool)
  | int (n : Int)
  | float (x : Double)
  | str (s : String)
  | list (items : List Value)
  | dict (fields : List (String × Value))
  | object (kind : ObjectKind) (fields : List (String × Value))
deriving Inhabited, Repr

/-- Fields in the order in which their keys were first put. -/
abbrev Fields := List (String × Value)

/-! ## Fields -/

/-- The fields with `key` set to `v`: in its old place if it is there, else at the end. -/
def Fields.put : Fields → String → Value → Fields
  | [], key, v => [(key, v)]
  | (k, w) :: rest, key, v => if k = key then (k, v) :: rest else (k, w) :: Fields.put rest key v

/-- The value under a key, the default if the key is not there. -/
def Fields.valueOr (fs : Fields) (key : String) (default : Value) : Value :=
  (fs.lookup key).getD default

/-- The value under a key, null if the key is not there. -/
def Fields.value (fs : Fields) (key : String) : Value :=
  fs.valueOr key .null

/-- The fields with `key` set to `v` unless the key is there already. -/
def Fields.putIfAbsent (fs : Fields) (key : String) (v : Value) : Fields :=
  match fs.lookup key with
  | some _ => fs
  | none => fs ++ [(key, v)]

def Fields.present (fs : Fields) : Fields :=
  fs.filter fun f => match f.2 with
    | .null => false
    | _ => true

/-- What was put under a key is found there. -/
@[simp] theorem Fields.lookup_put_self (fs : Fields) (key : String) (v : Value) :
    (Fields.put fs key v).lookup key = some v := by
  induction fs with
  | nil => simp [Fields.put]
  | cons f rest ih =>
    obtain ⟨k, w⟩ := f
    by_cases h : k = key
    · subst h; simp [Fields.put]
    · have h' : (key == k) = false := by simpa using fun e => h e.symm
      simp [Fields.put, h, List.lookup_cons, h', ih]

@[simp] theorem Fields.value_put_self (fs : Fields) (key : String) (v : Value) :
    Fields.value (Fields.put fs key v) key = v := by
  simp [Fields.value, Fields.valueOr]

/-- Putting a field leaves the other keys alone. -/
theorem Fields.lookup_put_of_ne (fs : Fields) {key other : String} (v : Value)
    (h : other ≠ key) : (Fields.put fs key v).lookup other = fs.lookup other := by
  have h' : (other == key) = false := by simpa using h
  induction fs with
  | nil => simp [Fields.put, List.lookup_cons, h']
  | cons f rest ih =>
    obtain ⟨k, w⟩ := f
    by_cases hk : k = key
    · subst hk; simp [Fields.put, List.lookup_cons, h']
    · simp [Fields.put, hk, List.lookup_cons, ih]

/-! ## Questions about a value -/

namespace Value

def isNull : Value → Bool
  | .null => true
  | _ => false

def isText (v : Value) (text : String) : Bool :=
  match v with
  | .str s => s == text
  | _ => false

/-- Whether the value counts as something: null, false, zero and the empty text, list and
dictionary do not; an object always does. -/
def truthy : Value → Bool
  | .null => false
  | .bool b => b
  | .int n => n ≠ 0
  | .float x => !x.isZero
  | .str s => s ≠ ""
  | .list items => !items.isEmpty
  | .dict fields => !fields.isEmpty
  | .object _ _ => true

/-- The value if it counts as something, else the alternative. -/
def orElse (v alternative : Value) : Value :=
  if v.truthy then v else alternative

def ifNull (v alternative : Value) : Value :=
  if v.isNull then alternative else v

def text? : Value → Option String
  | .str s => some s
  | _ => none

/-- A text counts as something if it is not empty. -/
@[simp] theorem truthy_str {s : String} : (Value.str s).truthy = true ↔ s ≠ "" := by
  simp [truthy]

@[simp] theorem isText_str {s t : String} : (Value.str s).isText t = true ↔ s = t := by
  simp [isText]

/-- What is asked for a text and has it is that text. -/
theorem eq_str_of_isText {v : Value} {t : String} (h : v.isText t = true) : v = .str t := by
  cases v <;> simp_all [isText]

end Value

end Parley
