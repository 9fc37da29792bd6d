import Parley.Proofs.Transcript.Adaptation

/-!
# Payloads in the form of their vendor

A vendor turns a request down over the form of its entries: an empty list of blocks, a text block
without a text, a result next to something that is none. `Vendor.Takes` says for each vendor which
entries it takes next to a system instruction, in terms of the entries alone.

* `Vendor.Takes`: the form that a vendor expects;
* `Payload.takes_of_adapt`: the payload of a conversation of texts has it, and its system
  instruction is that of the conversation, or the one given if the conversation holds none.

The entries are made one message at a time, so each vendor has one lemma for the entry of a message.
On the services where results join results the form is kept as a property of the entries before they
are written out (`Turn.Sound`), which joining preserves.
-/

namespace Parley

namespace Value

def IsFilledText (v : Value) : Prop :=
  ∃ s : String, s ≠ "" ∧ v = .str s

def IsNonBlankText (v : Value) : Prop :=
  ∃ s : String, Text.strip s.toList ≠ [] ∧ v = .str s

def IsJsonObject (v : Value) : Prop :=
  ∃ fields, v = .dict fields ∧ Json.Tree v

/-- An optional text counts as something exactly if it is a text that is not empty. -/
theorem IsOptionalText.truthy_iff_isFilledText {v : Value} (h : v.IsOptionalText) :
    v.truthy = true ↔ v.IsFilledText := by
  constructor
  · intro ht
    exact ⟨v.textOrEmpty, h.truthy_iff.1 ht, h.eq_str_of_truthy ht⟩
  · rintro ⟨s, hs, rfl⟩
    exact truthy_str.2 hs

/-- A dictionary that can be said is a JSON object. -/
theorem isJsonObject_dict {fields : Fields} (h : Json.Tree (.dict fields)) :
    (Value.dict fields).IsJsonObject :=
  ⟨fields, rfl, h⟩

end Value

/-- An id that is answered is not blank. -/
theorem Message.strip_answered_ne_nil {m : Message} (h : m.answered ≠ "") :
    Text.strip m.answered.toList ≠ [] := by
  rw [answered, String.toList_ofList, Text.strip_strip]
  intro hblank
  exact h (by rw [answered, hblank])

/-! ## The forms -/

namespace OpenAI

def IsSystem (entry : Value) : Prop :=
  entry.read "role" = .str "system"

/-- An entry as chat completions take it: a call list is not empty, each of its calls has an
argument text and the content next to it is null or a text, and a result names its call. -/
structure EntryFits (entry : Value) : Prop where
  calls : ∀ listed, entry.part? "tool_calls" = some listed →
    (∃ made, listed = .list made ∧ made ≠ [] ∧
      ∀ call ∈ made, ((call.read "function").read "arguments").IsFilledText) ∧
    (entry.part? "content" = some .null ∨ (entry.read "content").IsFilledText)
  result : entry.read "role" = .str "tool" → (entry.read "tool_call_id").IsNonBlankText

/-- Entries with a system instruction in front if it is a text that is not empty, and none
anywhere else. -/
inductive Headed (system : Value) : List Value → Prop where
  | without {entries : List Value} (none_given : ¬system.IsFilledText)
      (others : ∀ entry ∈ entries, ¬IsSystem entry) : Headed system entries
  | leading {first : Value} {rest : List Value} (given : system.IsFilledText)
      (role : IsSystem first) (content : first.read "content" = system)
      (others : ∀ entry ∈ rest, ¬IsSystem entry) : Headed system (first :: rest)

end OpenAI

namespace Anthropic

/-- A block of something said: a text that is not empty, or a call with an object as its input. -/
def SaidBlock (block : Value) : Prop :=
  (block.read "type" = .str "text" ∧ (block.read "text").IsFilledText) ∨
    (block.read "type" = .str "tool_use" ∧ (block.read "input").IsJsonObject)

def ResultBlock (block : Value) : Prop :=
  block.read "type" = .str "tool_result" ∧ (block.read "tool_use_id").IsNonBlankText

/-- A content as the messages service takes it: a text, or a list of blocks that is not empty and
does not hold results next to anything else. -/
inductive ContentFits : Value → Prop where
  | text (s : String) : ContentFits (.str s)
  | said {blocks : List Value} (some_block : blocks ≠ [])
      (each : ∀ block ∈ blocks, SaidBlock block) : ContentFits (.list blocks)
  | results {blocks : List Value} (some_block : blocks ≠ [])
      (each : ∀ block ∈ blocks, ResultBlock block) : ContentFits (.list blocks)

/-- An entry as the messages service takes it. -/
structure EntryFits (entry : Value) : Prop where
  role : entry.read "role" = .str "user" ∨ entry.read "role" = .str "assistant"
  content : ContentFits (entry.read "content")

end Anthropic

namespace Google

/-- A part that is a call with an object as its arguments. -/
def CallPart (part : Value) : Prop :=
  ∃ call, part = .dict [("function_call", call)] ∧ (call.read "args").IsJsonObject

/-- A part that is the response of a function, which is named, and an object. -/
def ResponsePart (part : Value) : Prop :=
  ∃ answer, part = .dict [("function_response", answer)] ∧
    (answer.read "name").IsFilledText ∧ (answer.read "response").IsJsonObject

/-- Parts as content generation takes them: there is one, responses do not stand next to anything
else, and an empty text does not stand next to a call. -/
inductive PartsFit : List Value → Prop where
  | said {parts : List Value} (some_part : parts ≠ [])
      (each : ∀ part ∈ parts, (∃ text, part = textPart (.str text)) ∨ CallPart part)
      (spoken : (∃ part ∈ parts, CallPart part) → textPart (.str "") ∉ parts) : PartsFit parts
  | responses {parts : List Value} (some_part : parts ≠ [])
      (each : ∀ part ∈ parts, ResponsePart part) : PartsFit parts

/-- An entry as content generation takes it. -/
structure EntryFits (entry : Value) : Prop where
  role : entry.read "role" = .str "user" ∨ entry.read "role" = .str "model"
  parts : ∃ parts, entry.read "parts" = .list parts ∧ PartsFit parts

end Google

/-- The form in which a vendor takes entries next to a system instruction. -/
def Vendor.Takes (vendor : Vendor) (system : Value) (entries : List Value) : Prop :=
  match vendor with
  | .openAI _ => OpenAI.Headed system entries ∧ ∀ entry ∈ entries, OpenAI.EntryFits entry
  | .anthropic => ∀ entry ∈ entries, Anthropic.EntryFits entry
  | .google _ => ∀ entry ∈ entries, Google.EntryFits entry

/-! ## Chat completions -/

namespace OpenAI

/-- The arguments of a call are sent as a text that is not empty. -/
theorem arguments_ofText (call : TextCall) :
    (((Call.ofText call).toValue.read "function").read "arguments").IsFilledText := by
  refine ⟨if call.arguments = "" then "{}" else call.arguments, ?_, ?_⟩
  · split
    · decide
    · assumption
  · simp [Call.toValue, Call.ofText]

/-- The entry of a message is in form. -/
theorem entryFits_ofMessage {m : Message} {turn : Turn} (hm : m.WellTyped) (hrole : m.IsTurn)
    (h : Turn.ofMessage m = .ok turn) : EntryFits turn.toValue := by
  rcases hrole with huser | hassistant | htool
  · rw [ofMessage_user huser] at h
    cases h
    exact ⟨by simp [Turn.toValue, Value.part?, List.lookup_cons], by simp [Turn.toValue]⟩
  · obtain ⟨calls, hcalls⟩ := hm.toolCalls
    by_cases hnone : calls = []
    · rw [ofMessage_plain hassistant (by rw [hcalls, hnone]; rfl)] at h
      cases h
      exact ⟨by simp [Turn.toValue, Value.part?, List.lookup_cons], by simp [Turn.toValue]⟩
    · rw [ofMessage_calling hassistant hcalls hnone, hm.content.orElse_null] at h
      cases h
      refine ⟨?_, by simp [Turn.toValue]⟩
      intro listed hlisted
      cases hlisted
      refine ⟨⟨_, rfl, by simpa using hnone, ?_⟩, ?_⟩
      · intro call hcall
        simp only [List.map_map, List.mem_map, Function.comp_apply] at hcall
        obtain ⟨made, -, rfl⟩ := hcall
        exact arguments_ofText made
      · by_cases htext : m.content.textOrEmpty = ""
        · exact .inl (by rw [if_pos htext]; rfl)
        · exact .inr ⟨m.content.textOrEmpty, htext, by simp [Turn.toValue, htext]⟩
  · rw [ofMessage_result htool] at h
    obtain ⟨id, hid, h⟩ := Outcome.of_bind_eq_ok h
    cases h
    obtain ⟨hsome, rfl⟩ := hm.requireAnsweredId_eq_ok_iff.1 hid
    refine ⟨by simp [Turn.toValue, Value.part?, List.lookup_cons], fun _ => ?_⟩
    exact ⟨m.answered, Message.strip_answered_ne_nil hsome, by simp [Turn.toValue]⟩

/-- No turn of a conversation is made a system entry. -/
theorem not_isSystem_ofMessage {m : Message} {turn : Turn} (h : Turn.ofMessage m = .ok turn) :
    ¬IsSystem turn.toValue := by
  intro hsystem
  have hrole := isText_role_toValue (ofMessage_ne_system h)
  rw [hsystem, Value.isText_str.2 rfl] at hrole
  cases hrole

/-- A system entry has the form of one. -/
theorem entryFits_system (text : Value) : EntryFits (Turn.system text).toValue :=
  ⟨by simp [Turn.toValue, Value.part?, List.lookup_cons], by simp [Turn.toValue]⟩

/-- Turns of texts have entries in the vendor's form, behind the system entry. -/
theorem takes_turns {label system : Value} {ms : List Message} {entries : List Turn}
    (htyped : ∀ m ∈ ms, m.WellTyped) (hroles : ∀ m ∈ ms, m.IsTurn)
    (hsystem : system.IsOptionalText) (h : turns ms system = .ok entries) :
    (Vendor.openAI label).Takes system (entries.map Turn.toValue) := by
  obtain ⟨told, htold, h⟩ := Outcome.of_bind_eq_ok h
  cases h
  have hof : ∀ turn ∈ told, ∃ m ∈ ms, Turn.ofMessage m = .ok turn := by
    intro turn hturn
    exact exists_of_mem_left (Outcome.mapM_eq_ok_iff.1 htold).flip hturn
  have hfits : ∀ entry ∈ told.map Turn.toValue, EntryFits entry := by
    refine List.forall_mem_map.2 fun turn hturn => ?_
    obtain ⟨m, hm, hmade⟩ := hof turn hturn
    exact entryFits_ofMessage (htyped m hm) (hroles m hm) hmade
  have hothers : ∀ entry ∈ told.map Turn.toValue, ¬IsSystem entry := by
    refine List.forall_mem_map.2 fun turn hturn => ?_
    obtain ⟨m, -, hmade⟩ := hof turn hturn
    exact not_isSystem_ofMessage hmade
  by_cases ht : system.truthy = true
  · rw [if_pos ht, List.map_cons]
    exact ⟨.leading (hsystem.truthy_iff_isFilledText.1 ht) (by simp [IsSystem, Turn.toValue])
      (by simp [Turn.toValue]) hothers, List.forall_mem_cons.2 ⟨entryFits_system system, hfits⟩⟩
  · rw [if_neg ht]
    exact ⟨.without (fun hfilled => ht (hsystem.truthy_iff_isFilledText.2 hfilled)) hothers, hfits⟩

end OpenAI

/-! ## The messages service -/

namespace Anthropic

def Turn.Sound : Turn → Prop
  | .user content => ∃ s, content = .str s
  | .assistant text => ∃ s, text = .str s
  | .toolUses text uses =>
    (∀ v ∈ text, v.IsFilledText) ∧ uses ≠ [] ∧ ∀ use ∈ uses, (Value.dict use.input).IsJsonObject
  | .results rs => rs ≠ [] ∧ ∀ result ∈ rs, Text.strip result.callId.toList ≠ []

/-- A sound turn carries nothing but texts and objects. -/
theorem plain_of_sound {turn : Turn} (h : turn.Sound) : turn.Plain := by
  rintro blocks rfl
  obtain ⟨s, hs⟩ := h
  cases hs

/-- The entry of a message is sound. -/
theorem sound_ofMessage {m : Message} {turn : Turn} (hm : m.WellTyped) (hrole : m.IsTurn)
    (h : Turn.ofMessage m = .ok turn) : turn.Sound := by
  have hcontent : m.content.orElse (.str "") = .str m.text := hm.content.orElse_empty
  rcases hrole with huser | hassistant | htool
  · rw [ofMessage_user huser, hcontent] at h
    cases h
    exact ⟨m.text, rfl⟩
  · obtain ⟨calls, hcalls⟩ := hm.toolCalls
    by_cases hnone : calls = []
    · rw [ofMessage_plain hassistant (by rw [hcalls, hnone]; rfl), hcontent] at h
      cases h
      exact ⟨m.text, rfl⟩
    · rw [ofMessage_calling hassistant hcalls hnone] at h
      obtain ⟨uses, huses, h⟩ := Outcome.of_bind_eq_ok h
      have hspelled := wellSpelled_of_mapM huses
      rw [mapM_toolUse_ofValue hspelled] at huses
      cases huses
      cases h
      refine ⟨?_, by simpa using hnone, ?_⟩
      · intro v hv
        split at hv
        · rename_i ht
          cases hv
          exact hm.content.truthy_iff_isFilledText.1 ht
        · cases hv
      · refine List.forall_mem_map.2 fun call hcall => ?_
        exact Value.isJsonObject_dict (hspelled call hcall).tree
  · rw [ofMessage_result htool] at h
    obtain ⟨id, hid, h⟩ := Outcome.of_bind_eq_ok h
    cases h
    obtain ⟨hsome, rfl⟩ := hm.requireAnsweredId_eq_ok_iff.1 hid
    exact ⟨by simp, by simpa using Message.strip_answered_ne_nil hsome⟩

/-- Adding an entry keeps the entries sound, whether it joins the nearest one or not. -/
theorem sound_push {before after : List Turn} {turn : Turn} (hbefore : ∀ t ∈ before, t.Sound)
    (hturn : turn.Sound) (h : push before turn = .ok after) : ∀ t ∈ after, t.Sound := by
  rcases push_cases (fun t ht => plain_of_sound (hbefore t ht)) (plain_of_sound hturn) h with
    rfl | ⟨old, new, earlier, rfl, rfl, rfl⟩
  · exact List.forall_mem_cons.2 ⟨hturn, hbefore⟩
  · rcases List.forall_mem_cons.1 hbefore with ⟨⟨hsome, hold⟩, hearlier⟩
    exact List.forall_mem_cons.2
      ⟨⟨by simp [hsome], List.forall_mem_append.2 ⟨hold, hturn.2⟩⟩, hearlier⟩

/-- Turns of texts become sound entries, which stay sound when results are added to them. -/
theorem sound_turnsAfter {ms : List Message} {before after : List Turn}
    (hbefore : ∀ t ∈ before, t.Sound) (htyped : ∀ m ∈ ms, m.WellTyped)
    (hroles : ∀ m ∈ ms, m.IsTurn) (h : turnsAfter before ms = .ok after) :
    ∀ t ∈ after, t.Sound := by
  induction ms generalizing before with
  | nil =>
    cases h
    exact hbefore
  | cons m rest ih =>
    obtain ⟨turn, hturn, h⟩ := Outcome.of_bind_eq_ok h
    obtain ⟨next, hnext, h⟩ := Outcome.of_bind_eq_ok h
    rcases List.forall_mem_cons.1 htyped with ⟨hm, htyped⟩
    rcases List.forall_mem_cons.1 hroles with ⟨hrole, hroles⟩
    exact ih (sound_push hbefore (sound_ofMessage hm hrole hturn) hnext) htyped hroles h

theorem saidBlock_text {text : Value} (h : text.IsFilledText) : SaidBlock (textBlock text) :=
  .inl ⟨by simp [textBlock], by simpa [textBlock] using h⟩

/-- A call with an object for its input is a block of the assistant's. -/
theorem saidBlock_toolUse {use : ToolUse} (h : (Value.dict use.input).IsJsonObject) :
    SaidBlock use.toValue :=
  .inr ⟨by simp [ToolUse.toValue], by simpa [ToolUse.toValue] using h⟩

/-- A result with an id that is not blank is a block of the user's. -/
theorem resultBlock_toValue {result : ToolResult} (h : Text.strip result.callId.toList ≠ []) :
    ResultBlock result.toValue :=
  ⟨by simp [ToolResult.toValue], result.callId, h, by simp [ToolResult.toValue]⟩

/-- A sound entry is in form. -/
theorem entryFits_of_sound {turn : Turn} (h : turn.Sound) : EntryFits turn.toValue := by
  have hrole : turn.toValue.read "role" = .str turn.role := by simp [Turn.toValue]
  have hcontent : turn.toValue.read "content" = turn.content := by simp [Turn.toValue]
  refine ⟨?_, ?_⟩
  · rw [hrole]
    cases turn <;> simp [Turn.role]
  · rw [hcontent]
    cases turn with
    | user content =>
      obtain ⟨s, rfl⟩ := h
      exact .text s
    | assistant text =>
      obtain ⟨s, rfl⟩ := h
      exact .text s
    | toolUses text uses =>
      rcases h with ⟨htext, hsome, huses⟩
      refine .said (by simp [hsome]) (List.forall_mem_append.2 ⟨?_, ?_⟩)
      · intro block hblock
        simp only [Option.mem_toList, Option.map_eq_some_iff] at hblock
        obtain ⟨v, hv, rfl⟩ := hblock
        exact saidBlock_text (htext v hv)
      · exact List.forall_mem_map.2 fun use huse => saidBlock_toolUse (huses use huse)
    | results rs =>
      rcases h with ⟨hsome, hids⟩
      refine .results (by simpa using hsome) ?_
      exact List.forall_mem_map.2 fun result hresult => resultBlock_toValue (hids result hresult)

/-- Turns of texts have entries in the vendor's form. -/
theorem takes_turns {system : Value} {ms : List Message} {entries : List Turn}
    (htyped : ∀ m ∈ ms, m.WellTyped) (hroles : ∀ m ∈ ms, m.IsTurn)
    (h : turns ms = .ok entries) : Vendor.anthropic.Takes system (entries.map Turn.toValue) := by
  obtain ⟨after, hafter, h⟩ := Outcome.of_bind_eq_ok h
  cases h
  have hsound := sound_turnsAfter (by simp) htyped hroles hafter
  refine List.forall_mem_map.2 fun turn hturn => ?_
  exact entryFits_of_sound (hsound turn (List.mem_reverse.1 hturn))

end Anthropic

/-! ## Content generation -/

namespace Google

def Turn.Sound : Turn → Prop
  | .user text => ∃ s, text = .str s
  | .model text => ∃ s, text = .str s
  | .calls text made =>
    (∀ v ∈ text, v.IsFilledText) ∧ made ≠ [] ∧ ∀ call ∈ made, (Value.dict call.args).IsJsonObject
  | .responses rs => rs ≠ [] ∧ ∀ response ∈ rs,
    response.name.IsFilledText ∧ (Value.dict response.response).IsJsonObject

/-- A result is sent as an object, whether its text writes one or not. -/
theorem isJsonObject_responseObject (text : String) :
    (Value.dict (responseObject text)).IsJsonObject := by
  have hwrapped : Json.Tree (.dict [("result", .str text)]) :=
    Json.tree_dict.2 ⟨by simp, by simpa using ⟨rfl, rfl, rfl⟩⟩
  refine Value.isJsonObject_dict ?_
  unfold responseObject
  split
  · rename_i hread
    exact Json.tree_of_read hread
  · exact hwrapped

/-- The entry of a message is sound. -/
theorem sound_ofMessage {seen : List Message} {m : Message} {turn : Turn}
    (hseen : ∀ m ∈ seen, m.WellTyped) (hm : m.WellTyped) (hrole : m.IsTurn)
    (h : Turn.ofMessage seen m = .ok turn) : turn.Sound := by
  have hcontent : m.content.orElse (.str "") = .str m.text := hm.content.orElse_empty
  rcases hrole with huser | hassistant | htool
  · rw [ofMessage_user seen huser, hcontent] at h
    cases h
    exact ⟨m.text, rfl⟩
  · obtain ⟨calls, hcalls⟩ := hm.toolCalls
    by_cases hnone : calls = []
    · rw [ofMessage_plain seen hassistant (by rw [hcalls, hnone]; rfl), hcontent] at h
      cases h
      exact ⟨m.text, rfl⟩
    · rw [ofMessage_calling seen hassistant hcalls hnone] at h
      obtain ⟨made, hmade, h⟩ := Outcome.of_bind_eq_ok h
      have hspelled := wellSpelled_of_mapM hmade
      rw [mapM_functionCall_ofValue hspelled] at hmade
      cases hmade
      cases h
      refine ⟨?_, by simpa using hnone, ?_⟩
      · intro v hv
        split at hv
        · rename_i ht
          cases hv
          exact hm.content.truthy_iff_isFilledText.1 ht
        · cases hv
      · refine List.forall_mem_map.2 fun call hcall => ?_
        exact Value.isJsonObject_dict (hspelled call hcall).tree
  · rw [ofMessage_result seen htool] at h
    obtain ⟨name, hname, h⟩ := Outcome.of_bind_eq_ok h
    obtain ⟨fields, hfields, h⟩ := Outcome.of_bind_eq_ok h
    cases h
    cases eq_responseObject hm.content hfields
    refine ⟨by simp, List.forall_mem_singleton.2 ⟨?_, isJsonObject_responseObject _⟩⟩
    exact answeredName_typed hseen hm hname

/-- Adding an entry keeps the entries sound, whether it joins the nearest one or not. -/
theorem sound_push {before : List Turn} {turn : Turn} (hbefore : ∀ t ∈ before, t.Sound)
    (hturn : turn.Sound) : ∀ t ∈ push before turn, t.Sound := by
  unfold push
  split
  · rcases List.forall_mem_cons.1 hbefore with ⟨⟨hsome, hold⟩, hearlier⟩
    exact List.forall_mem_cons.2
      ⟨⟨by simp [hsome], List.forall_mem_append.2 ⟨hold, hturn.2⟩⟩, hearlier⟩
  · exact List.forall_mem_cons.2 ⟨hturn, hbefore⟩

/-- Turns of texts become sound entries, and results that are added keep them so. -/
theorem sound_turnsAfter {seen ms : List Message} {before after : List Turn}
    (hseen : ∀ m ∈ seen, m.WellTyped) (hbefore : ∀ t ∈ before, t.Sound)
    (htyped : ∀ m ∈ ms, m.WellTyped) (hroles : ∀ m ∈ ms, m.IsTurn)
    (h : turnsAfter seen before ms = .ok after) : ∀ t ∈ after, t.Sound := by
  induction ms generalizing seen before with
  | nil =>
    cases h
    exact hbefore
  | cons m rest ih =>
    obtain ⟨turn, hturn, h⟩ := Outcome.of_bind_eq_ok h
    rcases List.forall_mem_cons.1 htyped with ⟨hm, htyped⟩
    rcases List.forall_mem_cons.1 hroles with ⟨hrole, hroles⟩
    have hseen' : ∀ x ∈ seen ++ [m], x.WellTyped :=
      List.forall_mem_append.2 ⟨hseen, by simpa using hm⟩
    exact ih hseen' (sound_push hbefore (sound_ofMessage hseen hm hrole hturn)) htyped hroles h

/-- A call with an object for its arguments is a part of the model's. -/
theorem callPart_toValue {call : FunctionCall} (h : (Value.dict call.args).IsJsonObject) :
    CallPart call.toValue :=
  ⟨_, rfl, by simpa using h⟩

theorem not_callPart_text (text : Value) : ¬CallPart (textPart text) := by
  rintro ⟨call, hcall, -⟩
  simp [textPart] at hcall

/-- A response with a name and an object is a part of the user's. -/
theorem responsePart_toValue {response : FunctionResponse} (hname : response.name.IsFilledText)
    (hobject : (Value.dict response.response).IsJsonObject) : ResponsePart response.toValue :=
  ⟨_, rfl, by simpa using hname, by simpa using hobject⟩

theorem partsFit_text (s : String) : PartsFit [textPart (.str s)] :=
  .said (by simp) (List.forall_mem_singleton.2 (.inl ⟨s, rfl⟩)) fun hcall => by
    obtain ⟨part, hpart, hcall⟩ := hcall
    rw [List.mem_singleton.1 hpart] at hcall
    exact absurd hcall (not_callPart_text _)

/-- A text, if there is one, and calls behind it are the parts of one entry. -/
theorem partsFit_calls {text : Option Value} {made : List FunctionCall}
    (htext : ∀ v ∈ text, v.IsFilledText) (hsome : made ≠ [])
    (hmade : ∀ call ∈ made, (Value.dict call.args).IsJsonObject) :
    PartsFit ((text.map textPart).toList ++ made.map FunctionCall.toValue) := by
  have htexts : ∀ part ∈ (text.map textPart).toList,
      ∃ s : String, s ≠ "" ∧ part = textPart (.str s) := by
    intro part hpart
    simp only [Option.mem_toList, Option.map_eq_some_iff] at hpart
    obtain ⟨v, hv, rfl⟩ := hpart
    obtain ⟨s, hs, rfl⟩ := htext v hv
    exact ⟨s, hs, rfl⟩
  have hcalls : ∀ part ∈ made.map FunctionCall.toValue, CallPart part :=
    List.forall_mem_map.2 fun call hcall => callPart_toValue (hmade call hcall)
  refine .said (by simp [hsome]) (List.forall_mem_append.2 ⟨?_, ?_⟩) fun _ hempty => ?_
  · intro part hpart
    obtain ⟨s, -, rfl⟩ := htexts part hpart
    exact .inl ⟨s, rfl⟩
  · exact fun part hpart => .inr (hcalls part hpart)
  · -- the text in front is not empty, and no call is a text
    rcases List.mem_append.1 hempty with hfront | hcall
    · obtain ⟨s, hs, heq⟩ := htexts _ hfront
      simp only [textPart, Value.dict.injEq, List.cons.injEq, Prod.mk.injEq, Value.str.injEq,
        true_and, and_true] at heq
      exact hs heq.symm
    · exact not_callPart_text _ (hcalls _ hcall)

/-- A sound entry is in form. -/
theorem entryFits_of_sound {turn : Turn} (h : turn.Sound) : EntryFits turn.toValue := by
  have hrole : turn.toValue.read "role" = .str turn.role := by simp [Turn.toValue]
  have hparts : turn.toValue.read "parts" = .list turn.parts := by simp [Turn.toValue]
  refine ⟨?_, turn.parts, hparts, ?_⟩
  · rw [hrole]
    cases turn <;> simp [Turn.role]
  · cases turn with
    | user text =>
      obtain ⟨s, rfl⟩ := h
      exact partsFit_text s
    | model text =>
      obtain ⟨s, rfl⟩ := h
      exact partsFit_text s
    | calls text made =>
      rcases h with ⟨htext, hsome, hmade⟩
      exact partsFit_calls htext hsome hmade
    | responses rs =>
      rcases h with ⟨hsome, hrs⟩
      refine .responses (by simpa [Turn.parts] using hsome) ?_
      refine List.forall_mem_map.2 fun response hresponse => ?_
      exact responsePart_toValue (hrs response hresponse).1 (hrs response hresponse).2

/-- Turns of texts have entries in the vendor's form. -/
theorem takes_turns {tag : String} {system : Value} {ms : List Message} {entries : List Turn}
    (htyped : ∀ m ∈ ms, m.WellTyped) (hroles : ∀ m ∈ ms, m.IsTurn)
    (h : turns ms = .ok entries) :
    (Vendor.google tag).Takes system (entries.map Turn.toValue) := by
  obtain ⟨after, hafter, h⟩ := Outcome.of_bind_eq_ok h
  cases h
  have hsound := sound_turnsAfter (by simp) (by simp) htyped hroles hafter
  refine List.forall_mem_map.2 fun turn hturn => ?_
  exact entryFits_of_sound (hsound turn (List.mem_reverse.1 hturn))

end Google

/-! ## Payloads -/

namespace Payload

variable {vendor : Vendor}

theorem takes_entries {ms : List Message} {system : Value} {entries : List Value}
    (htyped : ∀ m ∈ ms, m.WellTyped) (hroles : ∀ m ∈ ms, m.IsTurn)
    (hsystem : system.IsOptionalText) (h : Payload.entries vendor ms system = .ok entries) :
    vendor.Takes system entries := by
  cases vendor with
  | openAI label =>
    obtain ⟨turns, hturns, h⟩ := Outcome.of_bind_eq_ok h
    cases h
    exact OpenAI.takes_turns htyped hroles hsystem hturns
  | anthropic =>
    obtain ⟨turns, hturns, h⟩ := Outcome.of_bind_eq_ok h
    cases h
    exact Anthropic.takes_turns htyped hroles hturns
  | google tag =>
    obtain ⟨turns, hturns, h⟩ := Outcome.of_bind_eq_ok h
    cases h
    exact Google.takes_turns htyped hroles hturns

/-- The system instruction is made of the system messages if there are any. -/
theorem system_of_systemPrompt {ms : List Message} {fallback system : Value}
    (htyped : ∀ m ∈ ms, m.WellTyped) (h : Conversation.systemPrompt ms fallback = .ok system) :
    system = if ms.any (·.hasRole "system")
      then .str ("\n\n".intercalate (Conversation.systemTexts ms)) else fallback := by
  rw [Conversation.systemPrompt_of_typed htyped] at h
  have hnone : Conversation.systemTexts ms = [] ↔ ¬ms.any (·.hasRole "system") = true := by
    simp [Conversation.systemTexts]
  rw [← Except.ok.inj h]
  by_cases hany : ms.any (·.hasRole "system") = true
  · rw [if_pos hany, if_neg fun hempty => hnone.1 hempty hany]
  · rw [if_neg hany, if_pos (hnone.2 hany)]

/-- The payload of a conversation of texts is in the form that its vendor takes. Its system
instruction is that of the system messages, or the one given if there are none. -/
theorem takes_of_adapt {messages systemPrompt tools : Value} {ms : List Message} {payload : Payload}
    (hms : Conversation.ofValue messages = .ok ms) (htyped : ∀ m ∈ ms, m.WellTyped)
    (hprompt : systemPrompt.IsOptionalText)
    (h : adapt vendor messages systemPrompt tools = .ok payload) :
    (∃ entries, payload.messages = .list entries ∧ vendor.Takes payload.system entries) ∧
      payload.system = (if ms.any (·.hasRole "system")
        then .str ("\n\n".intercalate (Conversation.systemTexts ms)) else systemPrompt) := by
  obtain ⟨hsystem, entries, hentries, hpayload⟩ := entries_of_adapt hms h
  have hof : payload.system = (if ms.any (·.hasRole "system")
      then .str ("\n\n".intercalate (Conversation.systemTexts ms)) else systemPrompt) :=
    system_of_systemPrompt htyped hsystem
  have hoptional : payload.system.IsOptionalText := by
    rw [hof]
    split
    · exact .inr ⟨_, rfl⟩
    · exact hprompt
  have hturns : ∀ m ∈ Conversation.turns ms, m.WellTyped := fun m hm =>
    htyped m (List.mem_of_mem_filter hm)
  have hroles : ∀ m ∈ Conversation.turns ms, m.IsTurn := Conversation.isTurn_of_mem_turns hms
  exact ⟨⟨entries, hpayload, takes_entries hturns hroles hoptional hentries⟩, hof⟩

/-- The system messages of a conversation come before the instruction that is given beside it. -/
theorem takes_of_adapt_weather :
    ∃ payload entries,
      adapt .anthropic (.list (weatherMessages.map Message.toValue)) (.str "Be kind.")
        .null = .ok payload ∧
      payload.messages = .list entries ∧
      Vendor.anthropic.Takes payload.system entries ∧
      payload.system = .str ("\n\n".intercalate ["Be brief."]) := by
  have hok : (adapt .anthropic (.list (weatherMessages.map Message.toValue))
      (.str "Be kind.") .null).isOk = true := by
    decide +kernel
  obtain ⟨payload, hpayload⟩ := Outcome.of_isOk hok
  obtain ⟨⟨entries, hentries, htakes⟩, hsystem⟩ :=
    takes_of_adapt ofValue_weatherMessages wellTyped_weatherMessages (.inr ⟨_, rfl⟩) hpayload
  have hany : weatherMessages.any (·.hasRole "system") = true := by decide
  rw [if_pos hany] at hsystem
  exact ⟨payload, entries, hpayload, hentries, htakes, hsystem⟩

end Payload

end Parley
