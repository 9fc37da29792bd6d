import Parley.Proofs.Outcome
import Parley.Tool.JsonSchema

/-!
# Complete schemas

The root of a tool's parameters is completed by the defaults that it leaves out. Once complete, it
is left as it is, so a JSON Schema is its own JSON Schema.
-/

namespace Parley

/-! ## Absent fields -/

namespace Fields

/-- After a default is put the key holds what it held, or the default. -/
theorem lookup_putIfAbsent (fields : Fields) (key : String) (v : Value) :
    (fields.putIfAbsent key v).lookup key = some ((fields.lookup key).getD v) := by
  unfold putIfAbsent
  cases h : fields.lookup key with
  | some w => exact h
  | none => simp [List.lookup_append, h]

theorem putIfAbsent_of_lookup {fields : Fields} {key : String} {w : Value}
    (h : fields.lookup key = some w) (v : Value) : fields.putIfAbsent key v = fields := by
  rw [putIfAbsent, h]

theorem lookup_putIfAbsent_of_ne (fields : Fields) {key other : String} (v : Value)
    (hne : other ≠ key) : (fields.putIfAbsent key v).lookup other = fields.lookup other := by
  unfold putIfAbsent
  cases fields.lookup key with
  | some w => rfl
  | none =>
    have hbeq : (other == key) = false := by simpa using hne
    cases h : fields.lookup other <;> simp [List.lookup_append, h, List.lookup_cons, hbeq]

end Fields

namespace Tool

/-! ## Complete roots -/

/-- A root that leaves no default out: it has a type, and properties if it describes an object. -/
structure Complete (fields : Fields) : Prop where
  type : ∃ w, fields.lookup "type" = some w
  properties : (fields.value "type").isText "object" = true →
    ∃ w, fields.lookup "properties" = some w

theorem Complete.truthy {fields : Fields} (h : Complete fields) :
    (Value.dict fields).truthy = true := by
  obtain ⟨type, htype⟩ := h.type
  cases fields with
  | nil => cases htype
  | cons first rest => rfl

/-- A root with its defaults is complete. -/
theorem complete_completeRoot (fields : Fields) : Complete (completeRoot fields) := by
  have htype := Fields.lookup_putIfAbsent fields "type" (.str "object")
  unfold completeRoot
  by_cases hobject : ((fields.putIfAbsent "type" (.str "object")).value "type").isText "object" =
      true
  · rw [if_pos hobject]
    have hstill := Fields.lookup_putIfAbsent_of_ne
      (fields.putIfAbsent "type" (.str "object")) (.dict []) (show "type" ≠ "properties" by decide)
    exact ⟨⟨_, hstill.trans htype⟩, fun _ => ⟨_, Fields.lookup_putIfAbsent _ _ _⟩⟩
  · rw [if_neg hobject]
    exact ⟨⟨_, htype⟩, fun h => absurd h hobject⟩

theorem completeRoot_of_complete {fields : Fields} (h : Complete fields) :
    completeRoot fields = fields := by
  obtain ⟨type, htype⟩ := h.type
  rw [completeRoot, Fields.putIfAbsent_of_lookup htype]
  by_cases hobject : (fields.value "type").isText "object" = true
  · obtain ⟨properties, hproperties⟩ := h.properties hobject
    simp only [hobject, if_true, Fields.putIfAbsent_of_lookup hproperties]
  · simp only [hobject]
    rfl

/-! ## JSON Schemas -/

/-- A complete schema is its own form. -/
theorem jsonSchema_of_complete {fields : Fields} (h : Complete fields) :
    jsonSchema (.dict fields) = .ok (.dict fields) := by
  have hfields : (Value.dict fields).toFields = .ok fields := rfl
  rw [jsonSchema, if_pos h.truthy, Outcome.bind_of_ok hfields, completeRoot_of_complete h]
  rfl

/-- A JSON Schema of parameters has a complete root. -/
theorem exists_complete_of_jsonSchema {parameters schema : Value}
    (h : jsonSchema parameters = .ok schema) :
    ∃ fields, schema = .dict fields ∧ Complete fields := by
  unfold jsonSchema at h
  split at h
  · obtain ⟨fields, -, h⟩ := Outcome.of_bind_eq_ok h
    cases h
    exact ⟨_, rfl, complete_completeRoot fields⟩
  · cases h
    exact ⟨_, rfl, ⟨_, rfl⟩, fun _ => ⟨_, rfl⟩⟩

end Tool

end Parley
