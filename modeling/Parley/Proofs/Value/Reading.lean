import Parley.Proofs.Outcome
import Parley.Value.Access

/-!
# Reading fields

The tolerant reader of vendor data, in the terms of its two cases: a dictionary gives what stands
under a key, and a field with a default is the field unless that is null.
-/

namespace Parley

@[simp] theorem Fields.value_nil (key : String) : Fields.value [] key = .null := rfl

@[simp] theorem Fields.value_cons (k key : String) (v : Value) (rest : Fields) :
    Fields.value ((k, v) :: rest) key = if key = k then v else Fields.value rest key := by
  by_cases h : key = k
  · simp [Fields.value, Fields.valueOr, h]
  · have hne : (key == k) = false := by simpa using h
    simp [Fields.value, Fields.valueOr, List.lookup_cons, h, hne]

namespace Fields

variable {fields : Fields} {key : String} {v : Value}

/-- What stands under the first of two keys, even null, or else under the second. -/
def either (fields : Fields) (first second : String) : Value :=
  (fields.lookup first).getD (fields.value second)

theorem value_of_lookup (h : fields.lookup key = some v) : fields.value key = v := by
  simp [value, valueOr, h]

/-- Under a key that is not there stands null. -/
theorem value_of_lookup_none (h : fields.lookup key = none) : fields.value key = .null := by
  simp [value, valueOr, h]

theorem value_congr {others : Fields} (h : others.lookup key = fields.lookup key) :
    others.value key = fields.value key := by
  rw [value, valueOr, h, value, valueOr]

/-- What two keys hold between them depends on what each of them holds. -/
theorem either_congr {others : Fields} {first second : String}
    (hfirst : others.lookup first = fields.lookup first)
    (hsecond : others.value second = fields.value second) :
    others.either first second = fields.either first second := by
  rw [either, either, hfirst, hsecond]

end Fields

namespace Value

theorem orElse_empty_dict (entries : Fields) :
    (Value.dict entries).orElse (.dict []) = .dict entries := by
  cases entries <;> rfl

/-- An alternative counts if the value does not. -/
theorem truthy_orElse (v alternative : Value) :
    (v.orElse alternative).truthy = (v.truthy || alternative.truthy) := by
  unfold orElse
  cases hv : v.truthy <;> simp [hv]

theorem items_orElse_list (items : List Value) :
    ((Value.list items).orElse (.list [])).items = .ok items := by
  cases items <;> rfl

/-- A method that a value does not have gives nothing. -/
theorem callMissing_ne_ok {α : Type} (v : Value) (method : String) (a : α) :
    v.callMissing method ≠ .ok a := by
  intro h
  rcases Outcome.of_bind_eq_ok h with ⟨-, -, ⟨⟩⟩

theorem isNull_iff {v : Value} : v.isNull = true ↔ v = .null := by
  cases v <;> simp [isNull]

@[simp] theorem isNull_str (s : String) : (Value.str s).isNull = false := rfl

@[simp] theorem isNull_dict (fields : Fields) : (Value.dict fields).isNull = false := rfl

@[simp] theorem isNull_list (items : List Value) : (Value.list items).isNull = false := rfl

@[simp] theorem isNull_null : Value.null.isNull = true := rfl

@[simp] theorem ifNull_null (v : Value) : v.ifNull .null = v := by
  cases v <;> rfl

/-- The default stands in for what is null or not there. -/
theorem getD_filter_not_null (o : Option Value) (default : Value) :
    (o.filter fun w => !w.isNull).getD default = (o.getD .null).ifNull default := by
  cases o with
  | none => rfl
  | some w => cases w <;> rfl

theorem read_eq (v : Value) (name : String) : v.read name = (v.part? name).getD .null := by
  have h := getD_filter_not_null (v.part? name) .null
  rw [ifNull_null] at h
  rw [← h]
  unfold read field
  cases hp : v.part? name with
  | none => simp [hp]
  | some w => cases w <;> simp [hp, isNull, Option.filter]

/-- A field that is read under one name is what stands there, or the default. -/
theorem field_singleton (v : Value) (name : String) (default : Value) :
    v.field [name] default = (v.read name).ifNull default := by
  rw [read_eq, ← getD_filter_not_null]
  unfold field
  cases hp : v.part? name with
  | none => simp [hp]
  | some w => cases w <;> simp [hp, isNull, Option.filter]

/-- Of two names the first one counts, unless it holds null. -/
theorem field_pair (v : Value) (first second : String) (default : Value) :
    v.field [first, second] default = (v.read first).ifNull ((v.read second).ifNull default) := by
  rw [← field_singleton, read_eq, ← getD_filter_not_null]
  unfold field
  cases hp : v.part? first with
  | none => simp [hp]
  | some w => cases w <;> simp [hp, isNull, Option.filter]

@[simp] theorem read_dict (fields : Fields) (name : String) :
    (Value.dict fields).read name = fields.value name := by
  rw [read_eq]
  rfl

@[simp] theorem read_null (name : String) : Value.null.read name = .null := rfl

@[simp] theorem isText_null (text : String) : Value.null.isText text = false := rfl

/-! ## Joining texts -/

theorem mapM_text?_map_str (texts : List String) : (texts.map str).mapM text? = some texts := by
  induction texts with
  | nil => rfl
  | cons text rest ih => simp [text?, ih]

theorem joinTexts_map_str (texts : List String) :
    joinTexts (texts.map .str) = .ok (String.join texts) := by
  rw [joinTexts, mapM_text?_map_str]

end Value

/-! ## Fields that are not null -/

theorem Fields.present_cons (k : String) (v : Value) (rest : Fields) :
    Fields.present ((k, v) :: rest) =
      if v.isNull then Fields.present rest else (k, v) :: Fields.present rest := by
  cases v <;> simp [Fields.present, Value.isNull]

/-- Under a key that is not there nothing is found. -/
theorem Fields.lookup_of_not_mem {fields : Fields} {key : String}
    (h : key ∉ fields.map Prod.fst) : fields.lookup key = none := by
  rw [List.lookup_eq_none_iff]
  intro field hfield
  have hne : key ≠ field.1 := by
    rintro rfl
    exact h (List.mem_map_of_mem hfield)
  simpa using hne

theorem Fields.value_of_not_mem {fields : Fields} {key : String}
    (h : key ∉ fields.map Prod.fst) : fields.value key = .null := by
  rw [Fields.value, Fields.valueOr, lookup_of_not_mem h]
  rfl

/-- Dropping the fields that are null changes nothing for a reader, if no key stands twice. -/
theorem Fields.value_present {fields : Fields} (h : (fields.map Prod.fst).Nodup) (key : String) :
    Fields.value fields.present key = fields.value key := by
  induction fields with
  | nil => rfl
  | cons first rest ih =>
    rcases first with ⟨k, v⟩
    rcases List.nodup_cons.1 h with ⟨hfirst, hrest⟩
    by_cases hsame : key = k
    · have hmiss : Fields.value (Fields.present rest) key = .null := by
        rw [ih hrest, hsame]
        exact value_of_not_mem hfirst
      cases hnull : v.isNull with
      | true => simpa [present_cons, hsame, Value.isNull_iff.1 hnull] using hmiss
      | false => simp [present_cons, hsame, hnull]
    · cases hnull : v.isNull <;> simp [present_cons, hnull, hsame, ih hrest]

/-- What stands under a key that is there. -/
theorem Fields.lookup_of_value {fields : Fields} {key : String} {v : Value}
    (h : fields.value key = v) (hsome : v ≠ .null) : fields.lookup key = some v := by
  rcases hlookup : fields.lookup key with _ | w
  · exact absurd (h.symm.trans (value_of_lookup_none hlookup)) hsome
  · rw [← h, value_of_lookup hlookup]

/-- Of fields with distinct keys those that are not null are present. -/
theorem Fields.lookup_present_iff {fields : Fields} (h : (fields.map Prod.fst).Nodup)
    {key : String} {v : Value} :
    List.lookup key fields.present = some v ↔ fields.value key = v ∧ v ≠ .null := by
  rw [← value_present h]
  constructor
  · intro hlookup
    refine ⟨value_of_lookup hlookup, ?_⟩
    rintro rfl
    rcases List.lookup_eq_some_iff.1 hlookup with ⟨before, after, hsplit, -⟩
    have hmem : (key, Value.null) ∈ fields.present := by simp [hsplit]
    simp [present] at hmem
  · rintro ⟨hvalue, hsome⟩
    exact lookup_of_value hvalue hsome

end Parley
