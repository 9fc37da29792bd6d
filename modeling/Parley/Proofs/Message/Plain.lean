import Parley.Message.Basic
import Parley.Proofs.Value.Reading
import Parley.Tool.Basic

/-!
# Calls, messages and tools in plain form

What a dictionary is read as, by the fields that it has under the spellings that are looked at.
Which fields these are is settled by evaluation wherever the dictionary is written out.
-/

namespace Parley

/-! ## What is looked up -/

theorem Value.getEither_dict (fields : Fields) (first second : String) :
    (Value.dict fields).getEither first second = .ok (fields.either first second) := by
  unfold Fields.either
  cases hfirst : fields.lookup first with
  | some v => simp [getEither, get?, hfirst, bind, Except.bind, pure, Except.pure]
  | none =>
    simp [getEither, get?, get, hfirst, Fields.value, Fields.valueOr, bind, Except.bind, pure,
      Except.pure]

namespace ToolCall

def nested (fields : Fields) : Value :=
  (fields.value "function").orElse (.dict [])

/-- The name of a call as it is looked up: under one of its three keys, else nested. -/
theorem plainName_dict (fields : Fields) (function : Value) :
    plainName (.dict fields) function =
      (let name := (fields.value "function_name").orElse
        ((fields.value "functionName").orElse (fields.value "name"))
      if name.truthy then .ok name else function.get "name") :=
  rfl

/-- The arguments of a call as they are looked up: under one of the library's own keys, else under
`arguments`, beside the name or nested. -/
theorem plainArguments_eq (fields : Fields) (function : Value) :
    plainArguments (.dict fields) function =
      if (fields.either "arguments_json" "argumentsJSON").isNull then do
        let nested ← function.get? "arguments"
        return (fields.lookup "arguments").getD (nested.getD (.str ""))
      else .ok (fields.either "arguments_json" "argumentsJSON") := by
  rw [plainArguments, Outcome.bind_of_ok (Value.getEither_dict fields _ _)]
  rfl

/-- The arguments are looked for under the library's own keys, then beside the name, then nested. -/
theorem plainArguments_dict (fields function : Fields) :
    plainArguments (.dict fields) (.dict function) =
      (let given := fields.either "arguments_json" "argumentsJSON"
      .ok (if given.isNull then
        (fields.lookup "arguments").getD (function.valueOr "arguments" (.str "")) else given)) := by
  rw [plainArguments_eq]
  split <;> simp_all [Value.get?, Fields.valueOr]

/-- A call in terms of what is looked up in it. -/
theorem ofValue_dict_eq (fields : Fields) :
    ofValue (.dict fields) = (do
      let name ← plainName (.dict fields) (nested fields)
      if name.truthy then
        let text ← plainArguments (.dict fields) (nested fields) >>= argumentText
        let id ← ((fields.value "id").orElse (.str "")).spelled
        return ⟨.str id, name, .str text⟩
      else invalid (.callWithoutName (.dict fields))) := by
  simp only [bind_assoc]
  rfl

/-- The arguments of a call that is read were found, and are kept as a text. -/
theorem arguments_of_ofValue {fields : Fields} {made : ToolCall}
    (h : ofValue (.dict fields) = .ok made) :
    ∃ arguments text, plainArguments (.dict fields) (nested fields) = .ok arguments ∧
      argumentText arguments = .ok text ∧ made.arguments = .str text := by
  rw [ofValue_dict_eq] at h
  obtain ⟨name, -, h⟩ := Outcome.of_bind_eq_ok h
  split at h
  next =>
    obtain ⟨text, htext, h⟩ := Outcome.of_bind_eq_ok h
    obtain ⟨arguments, harguments, htext⟩ := Outcome.of_bind_eq_ok htext
    obtain ⟨id, -, h⟩ := Outcome.of_bind_eq_ok h
    cases h
    exact ⟨arguments, text, harguments, htext, rfl⟩
  next => cases h

/-- Arguments that are looked for under `arguments` are what stands there. -/
theorem arguments_of_either_null {fields : Fields} {arguments : Value}
    (hgiven : fields.either "arguments_json" "argumentsJSON" = .null)
    (h : plainArguments (.dict fields) (nested fields) = .ok arguments) :
    ∃ found, (nested fields).get? "arguments" = .ok found ∧
      arguments = (fields.lookup "arguments").getD (found.getD (.str "")) := by
  rw [plainArguments_eq, hgiven, if_pos Value.isNull_null] at h
  obtain ⟨found, hfound, h⟩ := Outcome.of_bind_eq_ok h
  cases h
  exact ⟨found, hfound, rfl⟩

end ToolCall

/-- A message in terms of what is looked up in it. -/
theorem Message.ofValue_dict_eq (fields : Fields) :
    ofValue (.dict fields) = (do
      let calls ← ((fields.either "tool_calls" "toolCalls").orElse (.list [])).items >>=
        List.mapM ToolCall.ofValue
      let metadata ← ((fields.value "metadata").orElse (.dict [])).toFields
      return {
        role := fields.value "role"
        content := fields.value "content"
        toolCalls := calls.map ToolCall.toValue
        toolCallId := fields.either "tool_call_id" "toolCallId"
        name := fields.value "name"
        metadata := .dict metadata }) := by
  simp only [ofValue, ofObject?, Value.getEither_dict, bind_assoc]
  rfl

/-- A message that lists calls is read exactly if each of them is and its metadata can be. -/
theorem Message.exists_ofValue_dict_iff {fields : Fields} {raws : List Value}
    (hlisted : fields.either "tool_calls" "toolCalls" = .list raws) :
    (∃ m, ofValue (.dict fields) = .ok m) ↔
      (∀ raw ∈ raws, ∃ call, ToolCall.ofValue raw = .ok call) ∧
        ∃ entries, ((fields.value "metadata").orElse (.dict [])).toFields = .ok entries := by
  rw [← Outcome.exists_mapM_iff, ofValue_dict_eq, hlisted,
    Outcome.bind_of_ok (Value.items_orElse_list raws)]
  constructor
  · rintro ⟨m, h⟩
    obtain ⟨calls, hcalls, h⟩ := Outcome.of_bind_eq_ok h
    obtain ⟨entries, hentries, -⟩ := Outcome.of_bind_eq_ok h
    exact ⟨⟨calls, hcalls⟩, entries, hentries⟩
  · rintro ⟨⟨calls, hcalls⟩, entries, hentries⟩
    rw [Outcome.bind_of_ok hcalls, Outcome.bind_of_ok hentries]
    exact ⟨_, rfl⟩

/-- The calls of a message are those that it lists, each as it is read. -/
theorem Message.toolCalls_of_ofValue {fields : Fields} {raws : List Value} {m : Message}
    (hlisted : fields.either "tool_calls" "toolCalls" = .list raws)
    (h : ofValue (.dict fields) = .ok m) :
    ∃ calls, raws.mapM ToolCall.ofValue = .ok calls ∧
      m.toolCalls = calls.map ToolCall.toValue := by
  rw [ofValue_dict_eq, hlisted, Outcome.bind_of_ok (Value.items_orElse_list raws)] at h
  obtain ⟨calls, hcalls, h⟩ := Outcome.of_bind_eq_ok h
  obtain ⟨entries, -, h⟩ := Outcome.of_bind_eq_ok h
  cases h
  exact ⟨calls, hcalls, rfl⟩

/-! ## What is read -/

section Plain

variable {fields : Fields}

/-- A dictionary is read as a call if a name, arguments and an id are found in it. -/
theorem ToolCall.ofValue_dict {function name arguments id : Value} {text : String}
    (hfunction : (Value.dict fields).get "function" = .ok function)
    (hname : plainName (.dict fields) (function.orElse (.dict [])) = .ok name)
    (hnamed : name.truthy = true)
    (harguments : plainArguments (.dict fields) (function.orElse (.dict [])) = .ok arguments)
    (htext : argumentText arguments = .ok text)
    (hid : (Value.dict fields).get "id" = .ok id)
    (hspelled : (id.orElse (.str "")).printable = true) :
    ofValue (.dict fields) = .ok ⟨.str (id.orElse (.str "")).plain, name, .str text⟩ := by
  simp only [ofValue, ofObject?]
  rw [Outcome.bind_of_ok hfunction, Outcome.bind_of_ok hname, if_pos hnamed,
    Outcome.bind_of_ok harguments, Outcome.bind_of_ok htext, Outcome.bind_of_ok hid,
    Outcome.bind_of_ok (Value.spelled_of_printable hspelled)]
  rfl

/-- A dictionary is read as a message if its calls are read and its other parts are found. -/
theorem Message.ofValue_dict {given : Value} {raws : List Value} {calls : List ToolCall}
    {role content callId name metadata : Value} {entries : Fields}
    (hgiven : (Value.dict fields).getEither "tool_calls" "toolCalls" = .ok given)
    (hitems : (given.orElse (.list [])).items = .ok raws)
    (hcalls : raws.mapM ToolCall.ofValue = .ok calls)
    (hrole : (Value.dict fields).get "role" = .ok role)
    (hcontent : (Value.dict fields).get "content" = .ok content)
    (hcallId : (Value.dict fields).getEither "tool_call_id" "toolCallId" = .ok callId)
    (hname : (Value.dict fields).get "name" = .ok name)
    (hmetadata : (Value.dict fields).get "metadata" = .ok metadata)
    (hentries : (metadata.orElse (.dict [])).toFields = .ok entries) :
    ofValue (.dict fields) = .ok
      { role := role, content := content, toolCalls := calls.map ToolCall.toValue,
        toolCallId := callId, name := name, metadata := .dict entries } := by
  simp only [ofValue, ofObject?]
  rw [Outcome.bind_of_ok hgiven, Outcome.bind_of_ok hitems, Outcome.bind_of_ok hcalls,
    Outcome.bind_of_ok hrole, Outcome.bind_of_ok hcontent, Outcome.bind_of_ok hcallId,
    Outcome.bind_of_ok hname, Outcome.bind_of_ok hmetadata, Outcome.bind_of_ok hentries]
  rfl

/-- A tool nested under its type. -/
theorem ToolSchema.ofValue_nested {type function name description parameters : Value}
    (htype : (Value.dict fields).get "type" = .ok type) (hnested : type.isText "function" = true)
    (hfunction : (Value.dict fields).get "function" = .ok function)
    (hsome : function.truthy = true) (hname : function.get "name" = .ok name)
    (hnamed : name.truthy = true) (hdescription : function.get "description" = .ok description)
    (hparameters : function.get "parameters" = .ok parameters) :
    ofValue (.dict fields) =
      .ok ⟨name, description.orElse (.str ""), parameters.orElse (.dict [])⟩ := by
  simp only [ofValue, ofObject?]
  rw [Outcome.bind_of_ok htype, if_pos hnested, Outcome.bind_of_ok hfunction, if_pos hsome,
    Outcome.bind_of_ok hname, if_pos hnamed, Outcome.bind_of_ok hdescription,
    Outcome.bind_of_ok hparameters]
  rfl

end Plain

end Parley
