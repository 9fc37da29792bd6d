import Parley.Proofs.Json.Tree
import Parley.Proofs.Value.Reading
import Parley.Tool.GeminiSchema

/-!
# Positions of a schema

A schema holds further schemas, at the places that some of its keywords have for them: the values of
its properties, the schema of its items and the members of its combinators. Whatever else it holds
is data, even if it looks like a schema. A position is given by the places on the way to it.

* `Combines`: the combinators;
* `Place`, `inner?`: the places of one schema and what stands there;
* `at?`: what stands at a position, `[]` being the root;
* `Hereditary.at?`: what holds of a value and of all that is in it holds at every position.
-/

namespace Parley

/-! ## Fields by their keys -/

theorem mem_of_lookup {α : Type} {entries : List (String × α)} {key : String} {a : α}
    (h : entries.lookup key = some a) : (key, a) ∈ entries := by
  rcases List.lookup_eq_some_iff.1 h with ⟨before, after, rfl, -⟩
  exact List.mem_append_right before List.mem_cons_self

/-- What stands there is found if the keys are distinct. -/
theorem Fields.lookup_of_mem {fields : Fields} {key : String} {v : Value}
    (hkeys : (fields.map Prod.fst).Nodup) (h : (key, v) ∈ fields) :
    fields.lookup key = some v := by
  induction fields with
  | nil => cases h
  | cons first rest ih =>
    rcases List.nodup_cons.1 hkeys with ⟨hfirst, hrest⟩
    rcases List.mem_cons.1 h with rfl | hmem
    · simp
    · have hkey : key ∈ rest.map Prod.fst := List.mem_map_of_mem hmem
      have hne : key ≠ first.1 := by
        rintro rfl
        exact hfirst hkey
      have hbeq : (key == first.1) = false := by simpa using hne
      rw [List.lookup_cons, hbeq]
      exact ih hrest hmem

/-! ## What holds all through a value -/

/-- A property that goes over from a value to all that the value is made of. -/
structure Hereditary (P : Value → Prop) : Prop where
  items : ∀ {items : List Value}, P (.list items) → ∀ v ∈ items, P v
  fields : ∀ {fields : Fields}, P (.dict fields) → ∀ f ∈ fields, P f.2

/-- That no key stands twice is inherited by what is inside. -/
theorem Json.hereditary_distinct : Hereditary fun v => distinct v = true where
  items h := distinct_list.1 h
  fields h := (distinct_dict.1 h).2

theorem Json.hereditary_tree : Hereditary Tree where
  items h := tree_list.1 h
  fields h := (tree_dict.1 h).2

namespace Tool

/-! ## Places -/

/-- A keyword whose value is a list of schemas, which it combines. -/
def Combines (keyword : String) : Prop :=
  keyword ∈ ["anyOf", "any_of", "oneOf", "allOf"]

instance (keyword : String) : Decidable (Combines keyword) :=
  List.instDecidableMemOfLawfulBEq _ _

/-- A place that a schema has for another one. -/
inductive Place where
  /-- The schema of a property. -/
  | property (name : String)
  /-- The schema of all items of a list. -/
  | items
  /-- One of the schemas that a combinator combines. -/
  | member (keyword : String) (position : Nat) (known : Combines keyword)
deriving DecidableEq

namespace Place

def keyword : Place → String
  | .property _ => "properties"
  | .items => "items"
  | .member keyword _ _ => keyword

/-- What stands at the place, given the value of the keyword. -/
def within? : Place → Value → Option Value
  | .property name, .dict properties => properties.lookup name
  | .items, .dict fields => some (.dict fields)
  | .member _ position _, .list members => members[position]?
  | _, _ => none

/-- What is inside a value is no larger than it. -/
theorem sizeOf_within? {place : Place} {v w : Value} (h : place.within? v = some w) :
    sizeOf w ≤ sizeOf v := by
  cases place with
  | property name =>
    cases v with
    | dict properties =>
      have hmem := List.sizeOf_lt_of_mem (mem_of_lookup h)
      simp only [Prod.mk.sizeOf_spec] at hmem
      simp only [Value.dict.sizeOf_spec]
      omega
    | _ => cases h
  | items =>
    cases v with
    | dict fields =>
      cases h
      exact Nat.le_refl _
    | _ => cases h
  | member keyword position known =>
    cases v with
    | list members =>
      have hmem := List.sizeOf_lt_of_mem (List.mem_of_getElem? h)
      simp only [Value.list.sizeOf_spec]
      omega
    | _ => cases h

/-- What is inherited holds at every place. -/
theorem hereditary_within? {P : Value → Prop} (hP : Hereditary P) {place : Place} {v w : Value}
    (h : place.within? v = some w) (hv : P v) : P w := by
  cases place with
  | property name =>
    cases v with
    | dict properties => exact hP.fields hv _ (mem_of_lookup h)
    | _ => cases h
  | items =>
    cases v with
    | dict fields =>
      cases h
      exact hv
    | _ => cases h
  | member keyword position known =>
    cases v with
    | list members => exact hP.items hv _ (List.mem_of_getElem? h)
    | _ => cases h

end Place

/-! ## Positions -/

def inner? (schema : Value) (place : Place) : Option Value :=
  match schema with
  | .dict fields => (fields.lookup place.keyword).bind place.within?
  | _ => none

/-- What stands at a position, the end of a way from place to place. -/
def at? (schema : Value) : List Place → Option Value
  | [] => some schema
  | place :: way => (inner? schema place).bind fun v => at? v way

/-- A schema has another one inside if it holds it under the keyword of the place. -/
theorem inner?_eq_some_iff {schema v : Value} {place : Place} :
    inner? schema place = some v ↔ ∃ fields w, schema = .dict fields ∧
      fields.lookup place.keyword = some w ∧ place.within? w = some v := by
  cases schema with
  | dict fields => simp [inner?, Option.bind_eq_some_iff]
  | _ => simp [inner?]

/-- What stands at a place is smaller than the schema that has the place. -/
theorem sizeOf_inner? {schema v : Value} {place : Place} (h : inner? schema place = some v) :
    sizeOf v < sizeOf schema := by
  rcases inner?_eq_some_iff.1 h with ⟨fields, w, rfl, hw, hv⟩
  have hmem := List.sizeOf_lt_of_mem (mem_of_lookup hw)
  have hle := Place.sizeOf_within? hv
  simp only [Prod.mk.sizeOf_spec] at hmem
  simp only [Value.dict.sizeOf_spec]
  omega

end Tool

namespace Hereditary

variable {P : Value → Prop} {schema v : Value}

theorem inner? (hP : Hereditary P) {place : Tool.Place} (h : Tool.inner? schema place = some v)
    (hschema : P schema) : P v := by
  rcases Tool.inner?_eq_some_iff.1 h with ⟨fields, w, rfl, hw, hv⟩
  exact Tool.Place.hereditary_within? hP hv (hP.fields hschema _ (mem_of_lookup hw))

/-- What is inherited holds at the end of every way. -/
theorem at? (hP : Hereditary P) {way : List Tool.Place} (h : Tool.at? schema way = some v)
    (hschema : P schema) : P v := by
  induction way generalizing schema with
  | nil =>
    cases h
    exact hschema
  | cons place way ih =>
    rcases Option.bind_eq_some_iff.1 h with ⟨w, hw, hv⟩
    exact ih hv (hP.inner? hw hschema)

end Hereditary

end Parley
