import Parley.Proofs.Value.Reading

/-!
# Changes to fields

Taking null fields out, changing what stands under one key, and taking out a field that stands after
a null one, each in terms of what is looked up afterwards.

* `Fields.withoutNulls`, `Fields.changeAt`, `Fields.hideBehind`: the changes;
* `Value.mapDict`, `Value.mapItems`: changes inside a dictionary or a list.
-/

namespace Parley

/-! ## Changes to fields -/

namespace Fields

variable {fields : Fields} {known : List String} {key other first second : String}
  {g : Value → Value}

/-- The fields without those of the known ones that are null. -/
def withoutNulls (known : List String) (fields : Fields) : Fields :=
  fields.filter fun f => !(known.contains f.1 && (fields.value f.1).isNull)

def changeAt (key : String) (g : Value → Value) (fields : Fields) : Fields :=
  fields.map fun f => if f.1 = key then (f.1, g f.2) else f

/-- The fields without the second of two if the first is null. -/
def hideBehind (first second : String) (fields : Fields) : Fields :=
  fields.filter fun f => !(f.1 == second && (fields.lookup first).any Value.isNull)

/-- No null under the first key stands in front of a value under the second. -/
def Unhidden (fields : Fields) (first second : String) : Prop :=
  fields.lookup first = some .null → fields.value second = .null

/-- What is kept of the fields is found as before. -/
theorem lookup_filter (p : String → Bool) (fields : Fields) (key : String) :
    (fields.filter fun f => p f.1).lookup key = if p key then fields.lookup key else none := by
  induction fields with
  | nil => simp
  | cons f rest ih =>
    obtain ⟨k, v⟩ := f
    by_cases hkey : key = k
    · subst hkey
      cases hp : p key <;> simp [hp, ih]
    · have hne : (key == k) = false := by simpa using hkey
      cases hp : p k <;> simp [hp, ih, List.lookup_cons, hne]

/-- A field is found as before, unless it was null. -/
theorem lookup_withoutNulls (known : List String) (fields : Fields) (key : String) :
    (fields.withoutNulls known).lookup key = fields.lookup key ∨
      (fields.withoutNulls known).lookup key = none ∧ fields.lookup key = some .null := by
  rw [withoutNulls, lookup_filter fun k => !(known.contains k && (fields.value k).isNull)]
  cases hdropped : known.contains key && (fields.value key).isNull with
  | false => exact .inl rfl
  | true =>
    rw [Bool.and_eq_true, Value.isNull_iff] at hdropped
    cases hlookup : fields.lookup key with
    | none => exact .inl rfl
    | some v =>
      rw [value_of_lookup hlookup] at hdropped
      exact .inr ⟨rfl, congrArg some hdropped.2⟩

/-- A known key holds null whether the null stands there or not. -/
@[simp] theorem value_withoutNulls : (fields.withoutNulls known).value key = fields.value key := by
  rcases lookup_withoutNulls known fields key with hsame | ⟨hnone, hnull⟩
  · exact value_congr hsame
  · rw [value_of_lookup_none hnone, value_of_lookup hnull]

/-- A change at one key is found under this key and no other. -/
theorem lookup_changeAt :
    (fields.changeAt key g).lookup other =
      if other = key then (fields.lookup other).map g else fields.lookup other := by
  induction fields with
  | nil => simp [changeAt]
  | cons f rest ih =>
    obtain ⟨k, v⟩ := f
    simp only [changeAt, List.map_cons] at ih ⊢
    by_cases hk : k = key <;> by_cases hother : other = k <;>
      simp_all [List.lookup_cons, beq_false_of_ne]

@[simp] theorem lookup_changeAt_self :
    (fields.changeAt key g).lookup key = (fields.lookup key).map g := by
  rw [lookup_changeAt, if_pos rfl]

theorem lookup_changeAt_of_ne (h : other ≠ key) :
    (fields.changeAt key g).lookup other = fields.lookup other := by
  rw [lookup_changeAt, if_neg h]

theorem value_changeAt_of_ne (h : other ≠ key) :
    (fields.changeAt key g).value other = fields.value other :=
  value_congr (lookup_changeAt_of_ne h)

/-- The value under the key is changed, if a null stays null. -/
theorem value_changeAt_self (hg : g .null = .null) :
    (fields.changeAt key g).value key = g (fields.value key) := by
  rw [value, valueOr, lookup_changeAt_self, value, valueOr]
  cases fields.lookup key with
  | none => exact hg.symm
  | some v => rfl

theorem lookup_hideBehind_of_ne (h : key ≠ second) :
    (fields.hideBehind first second).lookup key = fields.lookup key := by
  rw [hideBehind, lookup_filter fun k => !(k == second && (fields.lookup first).any Value.isNull)]
  simp [h]

theorem value_hideBehind_of_ne (h : key ≠ second) :
    (fields.hideBehind first second).value key = fields.value key :=
  value_congr (lookup_hideBehind_of_ne h)

/-- Under the second key nothing is found behind a null. -/
theorem lookup_hideBehind :
    (fields.hideBehind first second).lookup second =
      if (fields.lookup first).any Value.isNull then none else fields.lookup second := by
  rw [hideBehind, lookup_filter fun k => !(k == second && (fields.lookup first).any Value.isNull)]
  cases (fields.lookup first).any Value.isNull <;> simp

/-! ### What stands under either of two keys -/

/-- Hiding changes nothing of what is found under the two keys. -/
theorem either_hideBehind (fields : Fields) (h : first ≠ second) :
    (fields.hideBehind first second).either first second = fields.either first second := by
  rw [either, either, lookup_hideBehind_of_ne h]
  cases hfirst : fields.lookup first with
  | some v => rfl
  | none => simp [value, valueOr, lookup_hideBehind, hfirst]

/-- Whether anything is hidden depends on the two keys alone. -/
theorem Unhidden.congr {others : Fields} (h : fields.Unhidden first second)
    (hfirst : others.lookup first = fields.lookup first)
    (hsecond : others.value second = fields.value second) : others.Unhidden first second := by
  intro hnull
  rw [hsecond]
  exact h (hfirst ▸ hnull)

/-- After hiding nothing more is hidden. -/
theorem unhidden_hideBehind (fields : Fields) (h : first ≠ second) :
    (fields.hideBehind first second).Unhidden first second := by
  intro hnull
  rw [lookup_hideBehind_of_ne h] at hnull
  simp [value, valueOr, lookup_hideBehind, hnull]

/-- Without the nulls the same is found under either of two keys, if none of them hid it. -/
theorem either_withoutNulls (h : fields.Unhidden first second) :
    (fields.withoutNulls known).either first second = fields.either first second := by
  rw [either, either, value_withoutNulls]
  rcases lookup_withoutNulls known fields first with hsame | ⟨hnone, hnull⟩
  · rw [hsame]
  · rw [hnone, hnull]
    exact h hnull

end Fields

/-! ## Changes to what is nested -/

namespace Value

/-- The dictionary that a value is with its fields changed; anything else as it is. -/
def mapDict (g : Fields → Fields) : Value → Value
  | .dict fields => .dict (g fields)
  | v => v

/-- The list that a value is with its items changed; anything else as it is. -/
def mapItems (g : Value → Value) : Value → Value
  | .list items => .list (items.map g)
  | v => v

/-- What is no dictionary is not changed. -/
theorem mapDict_of_not_dict {g : Fields → Fields} {v : Value} (h : ∀ fields, v ≠ .dict fields) :
    v.mapDict g = v := by
  cases v with
  | dict fields => exact absurd rfl (h fields)
  | _ => rfl

/-- A default that a change leaves alone can be taken before it or after it. -/
theorem orElse_mapDict {g : Fields → Fields} (hg : g [] = []) (v : Value) :
    (v.mapDict g).orElse (.dict []) = (v.orElse (.dict [])).mapDict g := by
  by_cases hdict : ∃ fields, v = .dict fields
  · obtain ⟨fields, rfl⟩ := hdict
    rw [orElse_empty_dict, mapDict, orElse_empty_dict]
  · have hsame := mapDict_of_not_dict (g := g) (not_exists.1 hdict)
    rw [hsame]
    by_cases hsome : v.truthy
    · rw [orElse, if_pos hsome, hsame]
    · rw [orElse, if_neg hsome, mapDict, hg]

/-- Only a dictionary can be looked up. -/
theorem exists_of_get?_eq_ok {v : Value} {key : String} {found : Option Value}
    (h : v.get? key = .ok found) :
    ∃ fields : Fields, v = .dict fields ∧ fields.lookup key = found := by
  cases v with
  | dict fields => exact ⟨fields, rfl, Except.ok.inj h⟩
  | _ => exact absurd h (callMissing_ne_ok _ _ _)

/-- A change of fields shows in a look-up, and does not help where there are no fields. -/
theorem get?_mapDict {g : Fields → Fields} {key : String} {f : Option Value → Option Value}
    (h : ∀ fields : Fields, (g fields).lookup key = f (fields.lookup key)) (v : Value) :
    (v.mapDict g).get? key = (v.get? key).map f := by
  by_cases hdict : ∃ fields, v = .dict fields
  · obtain ⟨fields, rfl⟩ := hdict
    exact congrArg Except.ok (h fields)
  · rw [mapDict_of_not_dict (not_exists.1 hdict)]
    cases hfound : v.get? key with
    | error fault => rfl
    | ok found =>
      obtain ⟨fields, hfields, -⟩ := exists_of_get?_eq_ok hfound
      exact absurd ⟨fields, hfields⟩ hdict

/-- A change that leaves a key alone is not seen under it. -/
theorem get_mapDict {g : Fields → Fields} {key : String}
    (h : ∀ fields : Fields, (g fields).value key = fields.value key) (v : Value) :
    (v.mapDict g).get key = v.get key := by
  cases v with
  | dict fields => exact congrArg Except.ok (h fields)
  | _ => rfl

end Value

/-! ## What can be shown -/

namespace Value

/-- A dictionary can be shown if all of its values can. -/
theorem printable_dict {fields : Fields} :
    (Value.dict fields).printable = true ↔ ∀ f ∈ fields, f.2.printable = true := by
  rw [printable]
  induction fields with
  | nil => simp [printableFields]
  | cons f rest ih =>
    obtain ⟨k, v⟩ := f
    simp [printableFields, ih]

/-- A dictionary that can be shown can be shown with fewer fields. -/
theorem printable_dict_filter {fields : Fields} (keep : String × Value → Bool)
    (h : (Value.dict fields).printable = true) :
    (Value.dict (fields.filter keep)).printable = true :=
  printable_dict.2 fun f hf => printable_dict.1 h f (List.mem_of_mem_filter hf)

theorem printable_dict_changeAt {fields : Fields} {key : String} {g : Value → Value}
    (hg : ∀ v, v.printable = true → (g v).printable = true)
    (h : (Value.dict fields).printable = true) :
    (Value.dict (fields.changeAt key g)).printable = true := by
  refine printable_dict.2 fun f hf => ?_
  obtain ⟨old, hold, rfl⟩ := List.mem_map.1 hf
  split
  · exact hg _ (printable_dict.1 h old hold)
  · exact printable_dict.1 h old hold

theorem printable_mapDict {g : Fields → Fields}
    (hg : ∀ fields, (Value.dict fields).printable = true → (Value.dict (g fields)).printable = true)
    (v : Value) (h : v.printable = true) : (v.mapDict g).printable = true := by
  cases v with
  | dict fields => exact hg fields h
  | _ => exact h

end Value

end Parley
