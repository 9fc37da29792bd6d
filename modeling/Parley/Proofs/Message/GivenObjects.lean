import Parley.Proofs.Message.Arguments
import Parley.Proofs.Message.Plain

/-!
# Argument objects in plain calls

The arguments of a call in plain form may be given as an object instead of its text, under any of
the spellings of arguments. The object is written as a text when the call is read, and that text
decodes to the object.

* `ToolCall.GivesObject`: the ways to give an object;
* `ToolCall.WellFormed`: what a plain call needs besides to be read;
* `ToolCall.exists_ofValue_of_givesObject`, `ToolCall.decodes_of_givesObject`: such a call is read,
  and has the object for its arguments.
-/

namespace Parley.ToolCall

variable {fields args : Fields}

/-- A plain call gives an object for its arguments: under one of the library's own keys, or under
`arguments` where nothing stands under those, beside the name or nested. -/
inductive GivesObject (fields args : Fields) : Prop where
  | own (here : fields.lookup "arguments_json" = some (.dict args))
  | camel (absent : fields.lookup "arguments_json" = none)
      (here : fields.lookup "argumentsJSON" = some (.dict args))
  | beside (absent : fields.either "arguments_json" "argumentsJSON" = .null)
      (here : fields.lookup "arguments" = some (.dict args))
  | nested {function : Fields} (absent : fields.either "arguments_json" "argumentsJSON" = .null)
      (alone : fields.lookup "arguments" = none)
      (inner : fields.lookup "function" = some (.dict function))
      (here : function.lookup "arguments" = some (.dict args))

/-- A plain call has a name, beside its other parts or nested. -/
def Named (fields : Fields) : Prop :=
  (∃ key ∈ ["function_name", "functionName", "name"], (fields.value key).truthy = true) ∨
    ∃ function : Fields, nested fields = .dict function ∧ (function.value "name").truthy = true

/-- A plain call has a name, what is nested in it, if anything is, is a dictionary, and its id can
be made a text. -/
structure WellFormed (fields : Fields) : Prop where
  named : Named fields
  inner : ∃ function, nested fields = .dict function
  id : ((fields.value "id").orElse (.str "")).printable = true

/-- What is nested under its key is found there. -/
theorem nested_of_lookup {function : Fields}
    (h : fields.lookup "function" = some (.dict function)) : nested fields = .dict function := by
  rw [nested, Fields.value_of_lookup h, Value.orElse_empty_dict]

/-- A name that is there is found. -/
theorem exists_plainName (h : Named fields) :
    ∃ name, plainName (.dict fields) (nested fields) = .ok name ∧ name.truthy = true := by
  rw [plainName_dict]
  by_cases hbeside : ((fields.value "function_name").orElse
      ((fields.value "functionName").orElse (fields.value "name"))).truthy = true
  · exact ⟨_, if_pos hbeside, hbeside⟩
  · rcases h with ⟨key, hkey, hname⟩ | ⟨function, hfunction, hname⟩
    · refine absurd ?_ hbeside
      simp only [List.mem_cons, List.not_mem_nil, or_false] at hkey
      rcases hkey with rfl | rfl | rfl <;> simp [Value.truthy_orElse, hname]
    · refine ⟨function.value "name", ?_, hname⟩
      simp only [if_neg hbeside, hfunction]
      rfl

/-- What is found for the arguments is the object that is given. -/
theorem eq_dict_of_givesObject {arguments : Value} (h : GivesObject fields args)
    (hfound : plainArguments (.dict fields) (nested fields) = .ok arguments) :
    arguments = .dict args := by
  -- under the library's own keys the object is found at once
  have hown (hhere : fields.either "arguments_json" "argumentsJSON" = .dict args) :
      arguments = .dict args := by
    rw [plainArguments_eq, hhere] at hfound
    cases hfound
    rfl
  cases h with
  | own here =>
    refine hown ?_
    rw [Fields.either, here]
    rfl
  | camel absent here =>
    refine hown ?_
    rw [Fields.either, absent, Fields.value_of_lookup here]
    rfl
  | beside absent here =>
    obtain ⟨found, -, rfl⟩ := arguments_of_either_null absent hfound
    rw [here]
    rfl
  | nested absent alone inner here =>
    obtain ⟨found, hlookup, rfl⟩ := arguments_of_either_null absent hfound
    rw [nested_of_lookup inner, Value.get?, here] at hlookup
    cases hlookup
    rw [alone]
    rfl

/-- An object that is given for the arguments is kept as a text that decodes to it. -/
theorem exists_argumentText (htree : Json.Tree (.dict args)) :
    ∃ text, argumentText (.dict args) = .ok text ∧ Json.read text = .ok (.dict args) ∧
      Spells text args := by
  obtain ⟨text, hwrite, hspells⟩ := exists_text_of_tree htree
  refine ⟨text, ?_, Json.read_of_write_tree htree hwrite, hspells⟩
  simp only [argumentText, hwrite]

/-- A call in proper form that gives an object is read. -/
theorem exists_ofValue_of_givesObject (hform : WellFormed fields) (hgives : GivesObject fields args)
    (htree : Json.Tree (.dict args)) : ∃ made, ofValue (.dict fields) = .ok made := by
  obtain ⟨name, hname, hsome⟩ := exists_plainName hform.named
  obtain ⟨function, hfunction⟩ := hform.inner
  obtain ⟨text, htext, -⟩ := exists_argumentText htree
  have hfound : ∃ arguments, plainArguments (.dict fields) (nested fields) = .ok arguments := by
    rw [hfunction, plainArguments_dict]
    exact ⟨_, rfl⟩
  obtain ⟨arguments, harguments⟩ := hfound
  rw [eq_dict_of_givesObject hgives harguments] at harguments
  rw [ofValue_dict_eq, Outcome.bind_of_ok hname, if_pos hsome, Outcome.bind_of_ok harguments,
    Outcome.bind_of_ok htext, Outcome.bind_of_ok (Value.spelled_of_printable hform.id)]
  exact ⟨_, rfl⟩

/-- The arguments of a call that gives an object are a text of it, and decode to it. -/
theorem decodes_of_givesObject {made : ToolCall} (hgives : GivesObject fields args)
    (htree : Json.Tree (.dict args)) (hread : ofValue (.dict fields) = .ok made) :
    ∃ text, made.arguments = .str text ∧ Json.read text = .ok (.dict args) ∧
      made.argumentFields = .ok args := by
  obtain ⟨arguments, text, hfound, htext, hmade⟩ := arguments_of_ofValue hread
  rw [eq_dict_of_givesObject hgives hfound] at htext
  obtain ⟨written, hwritten, hback, hspells⟩ := exists_argumentText htree
  rw [hwritten] at htext
  cases htext
  refine ⟨text, hmade, hback, ?_⟩
  rw [argumentFields, hmade]
  exact decodeArguments_eq_ok_iff.2 hspells

end Parley.ToolCall
