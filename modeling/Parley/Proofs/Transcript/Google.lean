import Parley.Proofs.Conversation.Places
import Parley.Proofs.Transcript.Basic
import Parley.Proofs.Turn.Google

/-!
# Transcripts of content generation

Results that follow one another share an entry here as well, and a result is addressed by a
function's name that may have to be looked up in the messages before it. The messages before are
therefore carried along, with the fact that they are messages of texts.
-/

namespace Parley.Google

variable {tag : String}

/-! ## Entries -/

/-- The items of an entry, which are the same for every tag. -/
def Turn.items (turn : Turn) : List Item :=
  (readParts turn.toValue).map (Item.mk (.str turn.role))

/-- The items of an entry are those of the turn that it was made of. -/
theorem ofEntry_toValue (turn : Turn) :
    Transcript.ofEntry (.google tag) turn.toValue = turn.items := by
  simp [Transcript.ofEntry, Vendor.readParts, Turn.items, Turn.toValue]

theorem readPart_text (text : String) : readPart (textPart (.str text)) = .text (.str text) := by
  simp [readPart, textPart]

def FunctionCall.part (call : FunctionCall) : Part :=
  .call none call.name (.dict call.args)

def FunctionResponse.part (response : FunctionResponse) : Part :=
  .result response.name (.dict response.response)

theorem readPart_call (call : FunctionCall) : readPart call.toValue = call.part := by
  simp [readPart, FunctionCall.toValue, FunctionCall.part]

theorem readPart_response (response : FunctionResponse) :
    readPart response.toValue = response.part := by
  simp [readPart, FunctionResponse.toValue, FunctionResponse.part]

theorem items_user (text : String) :
    (Turn.user (.str text)).items = [⟨.str "user", .text (.str text)⟩] := by
  simp [Turn.items, readParts, Turn.toValue, Turn.parts, Turn.role, readPart_text]

theorem items_model (text : String) :
    (Turn.model (.str text)).items = [⟨.str "model", .text (.str text)⟩] := by
  simp [Turn.items, readParts, Turn.toValue, Turn.parts, Turn.role, readPart_text]

/-- The items of a turn with calls are the text, if there is one, and the calls. -/
theorem items_calls {m : Message} (h : m.content.IsOptionalText) (calls : List FunctionCall) :
    (Turn.calls (if m.content.truthy then some m.content else none) calls).items =
      (m.textParts ++ calls.map FunctionCall.part).map (Item.mk (.str "model")) := by
  have hcalls : (calls.map FunctionCall.toValue).map readPart = calls.map FunctionCall.part := by
    rw [List.map_map]
    exact List.map_congr_left fun call _ => readPart_call call
  rw [h.some_if_truthy, Message.textParts, Message.text]
  split
  · simp [Turn.items, readParts, Turn.toValue, Turn.parts, Turn.role, hcalls]
  · simp [Turn.items, readParts, Turn.toValue, Turn.parts, Turn.role, readPart_text, hcalls]

theorem readParts_responses (responses : List FunctionResponse) :
    (Vendor.google tag).readParts (Turn.responses responses).toValue =
      responses.map FunctionResponse.part := by
  have hresponses : (responses.map FunctionResponse.toValue).map readPart =
      responses.map FunctionResponse.part := by
    rw [List.map_map]
    exact List.map_congr_left fun response _ => readPart_response response
  simp [Vendor.readParts, readParts, Turn.toValue, Turn.parts, hresponses]

/-- The items of a turn of responses are the responses, all of them the user's. -/
theorem items_responses (responses : List FunctionResponse) :
    (Turn.responses responses).items =
      responses.map fun response => ⟨.str "user", response.part⟩ := by
  have hentry : Transcript.ofEntry (.google "") (Turn.responses responses).toValue =
      (Turn.responses responses).items := ofEntry_toValue _
  rw [← hentry, Transcript.ofEntry, readParts_responses]
  simp [Turn.toValue, Turn.role]

/-! ## The function that is answered -/

theorem same_str (s t : String) : (Value.str s).same (.str t) = (s == t) := by
  simp [Value.same, Value.sameScalar]

/-- The name that is found is a text, if what was found before is. -/
theorem nameAmong_typed (id found : Value) (calls : List TextCall) {name : Value}
    (hfound : found.IsOptionalText)
    (h : nameAmong id found (calls.map TextCall.toValue) = .ok name) : name.IsOptionalText := by
  -- the last call with the id gives the name, so the one found so far varies
  induction calls generalizing found with
  | nil =>
    cases h
    exact hfound
  | cons call rest ih =>
    have h : (if (Value.str call.id).same id then
        nameAmong id (.str call.name) (rest.map TextCall.toValue)
      else nameAmong id found (rest.map TextCall.toValue)) = .ok name := h
    split at h
    · exact ih _ (.inr ⟨call.name, rfl⟩) h
    · exact ih _ hfound h

theorem nameIn_typed (id found : Value) {ms : List Message} (hms : ∀ m ∈ ms, m.WellTyped)
    {name : Value} (hfound : found.IsOptionalText) (h : nameIn id found ms = .ok name) :
    name.IsOptionalText := by
  induction ms generalizing found with
  | nil =>
    cases h
    exact hfound
  | cons m rest ih =>
    obtain ⟨next, hnext, h⟩ := Outcome.of_bind_eq_ok h
    obtain ⟨calls, hcalls⟩ := (hms m (by simp)).toolCalls
    rw [hcalls] at hnext
    exact ih next (fun x hx => hms x (by simp [hx])) (nameAmong_typed id found calls hfound hnext) h

/-- A name is the message's own, or else one that is found in the messages before the first place of
the message. -/
theorem answeredName_cases {seen : List Message} {m : Message} {name : Value}
    (h : answeredName seen m = .ok name) :
    name.truthy = true ∧ ((m.name.truthy = true ∧ name = m.name) ∨
      (¬m.name.truthy = true ∧ m.toolCallId.truthy = true ∧
        nameIn m.toolCallId .null (beforeFirst seen m) = .ok name)) := by
  have hfinal (found : Value)
      (h : (if found.truthy then pure found else invalid (.unnamedResult m.toolCallId)) =
        (.ok name : Outcome Value)) : found.truthy = true ∧ name = found := by
    split at h
    · rename_i ht
      cases h
      exact ⟨ht, rfl⟩
    · cases h
  -- the name of the message itself, then that of the call, then none
  unfold answeredName at h
  split at h
  · rename_i hown
    obtain ⟨ht, rfl⟩ := hfinal m.name h
    exact ⟨ht, .inl ⟨hown, rfl⟩⟩
  · rename_i hown
    split at h
    · rename_i hid
      obtain ⟨found, hfound, h⟩ := Outcome.of_bind_eq_ok h
      obtain ⟨ht, rfl⟩ := hfinal found h
      exact ⟨ht, .inr ⟨hown, hid, hfound⟩⟩
    · obtain ⟨ht, -⟩ := hfinal .null h
      cases ht

/-- A result is addressed by a name that is a text and not empty. -/
theorem answeredName_typed {seen : List Message} {m : Message} {name : Value}
    (hseen : ∀ m ∈ seen, m.WellTyped) (hm : m.WellTyped) (h : answeredName seen m = .ok name) :
    ∃ s : String, s ≠ "" ∧ name = .str s := by
  obtain ⟨ht, hname⟩ := answeredName_cases h
  have htyped : name.IsOptionalText := by
    rcases hname with ⟨-, rfl⟩ | ⟨-, -, hfound⟩
    · exact hm.name
    · exact nameIn_typed _ _ (fun n hn => hseen n (mem_of_mem_beforeFirst hn)) (.inl rfl) hfound
  exact ⟨_, htyped.truthy_iff.1 ht, htyped.eq_str_of_truthy ht⟩

/-- A result is sent as the object that its text writes, or as its text wrapped, unless there is an
integer with too many digits in it. -/
theorem responseFields_typed {content : Value} (h : content.IsOptionalText) :
    responseFields content =
      if Json.isOverlong content.textOrEmpty then misuse .content
      else .ok (responseObject content.textOrEmpty) := by
  rcases h with rfl | ⟨text, rfl⟩
  · rfl
  · by_cases ht : text = ""
    · subst ht
      rfl
    · have htext : (Value.str text).textOrEmpty = text := rfl
      rw [responseFields, if_pos (Value.truthy_str.2 ht), htext]
      -- what does not decode, or not to an object, is wrapped
      cases hread : Json.read text with
      | error e => simp only [Json.isOverlong, responseObject, hread]
      | ok v => cases v <;> simp [Json.isOverlong, responseObject, hread]

/-- The fields of a response are the object that its text holds, or the text under a key. -/
theorem eq_responseObject {content : Value} {fields : Fields} (h : content.IsOptionalText)
    (hfields : responseFields content = .ok fields) :
    fields = responseObject content.textOrEmpty := by
  rw [responseFields_typed h] at hfields
  split at hfields
  · cases hfields
  · cases hfields
    rfl

/-! ## Messages -/

/-- Calls are told with their names and their arguments. -/
theorem tells_calls {calls : List TextCall} (h : ∀ call ∈ calls, call.WellSpelled) :
    List.Forall₂ (TellsCall (.google tag)) calls
      ((calls.map FunctionCall.ofText).map FunctionCall.part) := by
  rw [List.map_map, List.forall₂_map_right_iff]
  exact List.forall₂_same.2 fun call hcall => ⟨call.fields, (h call hcall).argumentFields, rfl⟩

/-- An entry says what its message says. -/
theorem tells_ofMessage {seen : List Message} {m : Message} {turn : Turn}
    (hseen : ∀ m ∈ seen, m.WellTyped) (hm : m.WellTyped) (hrole : m.IsTurn)
    (h : Turn.ofMessage seen m = .ok turn) : Tells (.google tag) m turn.items := by
  have hcontent : m.content.orElse (.str "") = .str m.text := hm.content.orElse_empty
  rcases hrole with huser | hassistant | htool
  · rw [ofMessage_user seen huser, hcontent] at h
    cases h
    rw [items_user]
    exact .user huser
  -- the entry exists, so all argument texts could be decoded
  · obtain ⟨calls, hcalls⟩ := hm.toolCalls
    by_cases hnone : calls = []
    · have hcalls : m.toolCalls = [] := by rw [hcalls, hnone]; rfl
      rw [ofMessage_plain seen hassistant hcalls, hcontent] at h
      cases h
      rw [items_model]
      exact .plain hassistant hcalls
    · rw [ofMessage_calling seen hassistant hcalls hnone] at h
      obtain ⟨made, hmade, h⟩ := Outcome.of_bind_eq_ok h
      have hspelled := wellSpelled_of_mapM hmade
      rw [mapM_functionCall_ofValue hspelled] at hmade
      cases hmade
      cases h
      rw [items_calls hm.content]
      exact .calling hassistant hcalls hnone (tells_calls hspelled)
  · rw [ofMessage_result seen htool] at h
    obtain ⟨name, hname, h⟩ := Outcome.of_bind_eq_ok h
    obtain ⟨fields, hfields, h⟩ := Outcome.of_bind_eq_ok h
    cases h
    cases eq_responseObject hm.content hfields
    obtain ⟨function, hne, rfl⟩ := answeredName_typed hseen hm hname
    rw [items_responses]
    exact .result htool ⟨function, hne, rfl⟩

/-! ## Joining entries -/

/-- The items of entries that are listed with the nearest first. -/
def itemsOf (before : List Turn) : List Item :=
  before.reverse.flatMap Turn.items

/-- The items of turns are those of the earlier ones, and then those of the last. -/
theorem itemsOf_cons (turn : Turn) (before : List Turn) :
    itemsOf (turn :: before) = itemsOf before ++ turn.items := by
  simp [itemsOf]

/-- An entry is added to those before it, or joined to the nearest one if both hold results. -/
theorem push_cases (before : List Turn) (turn : Turn) :
    push before turn = turn :: before ∨ ∃ old new earlier, before = .responses old :: earlier ∧
      turn = .responses new ∧ push before turn = .responses (old ++ new) :: earlier := by
  unfold push
  split
  · exact .inr ⟨_, _, _, rfl, rfl, rfl⟩
  · exact .inl rfl

/-- Adding an entry adds its items, whether it is joined to the last entry or not. -/
theorem push_items (before : List Turn) (turn : Turn) :
    itemsOf (push before turn) = itemsOf before ++ turn.items := by
  rcases push_cases before turn with hafter | ⟨old, new, earlier, rfl, rfl, hafter⟩
  · rw [hafter]
    exact itemsOf_cons turn before
  · -- Both entries hold results: the one case in which the last entry grows.
    rw [hafter]
    simp [itemsOf_cons, items_responses]

/-- The entries of messages add what the messages say. -/
theorem tells_turnsAfter {seen ms : List Message} {before after : List Turn}
    (hseen : ∀ m ∈ seen, m.WellTyped) (htyped : ∀ m ∈ ms, m.WellTyped)
    (hroles : ∀ m ∈ ms, m.IsTurn) (h : turnsAfter seen before ms = .ok after) :
    ∃ told, List.Forall₂ (Tells (.google tag)) ms told ∧
      itemsOf after = itemsOf before ++ told.flatten := by
  induction ms generalizing seen before with
  | nil =>
    cases h
    exact ⟨[], .nil, by simp⟩
  | cons m rest ih =>
    obtain ⟨turn, hturn, h⟩ := Outcome.of_bind_eq_ok h
    have hm : m.WellTyped := htyped m (by simp)
    have htells : Tells (.google tag) m turn.items :=
      tells_ofMessage hseen hm (hroles m (by simp)) hturn
    -- a message is seen by those behind it
    have hseen' : ∀ x ∈ seen ++ [m], x.WellTyped :=
      List.forall_mem_append.2 ⟨hseen, by simpa using hm⟩
    obtain ⟨told, htold, hrest⟩ := ih hseen' (fun x hx => htyped x (by simp [hx]))
      (fun x hx => hroles x (by simp [hx])) h
    exact ⟨turn.items :: told, .cons htells htold, by simp [hrest, push_items]⟩

/-- The payload of a conversation says what its messages say. -/
theorem tells_turns {ms : List Message} {entries : List Turn} (htyped : ∀ m ∈ ms, m.WellTyped)
    (hroles : ∀ m ∈ ms, m.IsTurn) (h : turns ms = .ok entries) :
    ∃ told, List.Forall₂ (Tells (.google tag)) ms told ∧
      Transcript.read (.google tag) (.list (entries.map Turn.toValue)) = told.flatten := by
  obtain ⟨after, hafter, h⟩ := Outcome.of_bind_eq_ok h
  cases h
  obtain ⟨told, htold, hitems⟩ := tells_turnsAfter (by simp) htyped hroles hafter
  refine ⟨told, htold, ?_⟩
  have hread : Transcript.read (.google tag) (.list (after.reverse.map Turn.toValue)) =
      itemsOf after := by
    rw [Transcript.read, Transcript.ofEntries, Vendor.body, List.flatMap_map]
    · simp only [ofEntry_toValue]
      rfl
    · simp
  rw [hread, hitems]
  rfl

end Parley.Google
