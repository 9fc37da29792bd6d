import Parley.Proofs.Payload
import Parley.Proofs.Payload.CallEntry
import Parley.Proofs.Reply.Reading

/-!
# Calls survive a round trip

An entry that a message with calls becomes, taken for a reply of the vendor, is read as a message
with the same content and the same calls. On the way the arguments are decoded, written anew and
decoded again, or left as they are, depending on the vendor.

* `Payload.says_of_entries`: what the entry says as a reply;
* `Payload.readReply_of_adapt`: the round trip, for a message in any conversation.
-/

namespace Parley

/-! ## Entries as replies -/

namespace Vendor

/-- The complete response that has an entry as its only reply. -/
def responseOf (vendor : Vendor) (entry : Value) : Value :=
  match vendor with
  | .openAI _ => .dict [("choices", .list [.dict [("message", entry)]])]
  | .anthropic => .dict [("content", entry.read "content")]
  | .google _ => .dict [("candidates", .list [.dict [("content", entry)]])]

/-- Whether the entries of a vendor hold the ids of calls. -/
def keepsIds : Vendor → Bool
  | .google _ => false
  | _ => true

end Vendor

namespace TextCall

/-- A call with an id, a name and arguments that can be decoded. -/
structure Sound (call : TextCall) : Prop where
  identified : call.id ≠ ""
  named : call.name ≠ ""
  arguments : call.WellSpelled

/-- A call is sound exactly if it has an id, a name and arguments that can be read. -/
theorem sound_iff {call : TextCall} :
    call.Sound ↔ call.id ≠ "" ∧ call.name ≠ "" ∧
      (decodeArguments .null call.arguments).isOk = true := by
  constructor
  · rintro ⟨hid, hname, hspelled⟩
    refine ⟨hid, hname, ?_⟩
    rw [decodeArguments_eq_ok_iff.2 hspelled]
    rfl
  · rintro ⟨hid, hname, hdecodes⟩
    rcases Outcome.of_isOk hdecodes with ⟨fields, hfields⟩
    exact ⟨hid, hname, wellSpelled_of_spells (decodeArguments_eq_ok_iff.1 hfields)⟩

instance (call : TextCall) : Decidable call.Sound :=
  decidable_of_iff _ sound_iff.symm

/-- The call as one that a reply asks for, with its id or without. -/
def asked (given : Bool) (call : TextCall) : AskedCall :=
  ⟨if given then some call.id else none, call.name, call.fields⟩

end TextCall

/-! ## What they say -/

/-- The text of a message as a piece of a reply, unless it is empty. -/
def Message.textPieces (m : Message) : List Speech :=
  if m.text = "" then [] else [⟨m.text, []⟩]

/-- A text and calls join to what the message says. -/
theorem join_textPieces (m : Message) (given : Bool) (calls : List TextCall) :
    Speech.join (m.textPieces ++ calls.map fun call => ⟨"", [call.asked given]⟩) =
      ⟨m.text, calls.map (TextCall.asked given)⟩ := by
  have hcalls : Speech.join (calls.map fun call => ⟨"", [call.asked given]⟩) =
      ⟨"", calls.map (TextCall.asked given)⟩ :=
    Speech.join_map_call (TextCall.asked given) calls
  by_cases htext : m.text = ""
  · simp [Message.textPieces, htext, hcalls]
  · ext1 <;> simp [Message.textPieces, htext, hcalls]

/-- The text in an entry with calls is there exactly if the message has one. -/
theorem forall₂_textPieces {m : Message} {form : Value → Value} {R : Value → Speech → Prop}
    (h : m.content.IsOptionalText) (hform : ∀ text, R (form (.str text)) ⟨text, []⟩) :
    List.Forall₂ R ((if m.content.truthy then some m.content else none).map form).toList
      m.textPieces := by
  rw [h.some_if_truthy, Message.textPieces, Message.text]
  split
  · exact .nil
  · exact .cons (hform m.content.textOrEmpty) .nil

namespace OpenAI

/-- What the first vendor is sent of a sound call asks for it. -/
theorem asks_ofText {call : TextCall} (h : call.Sound) :
    Asks (Call.ofText call).toValue (call.asked true) where
  id := ⟨call.id, rfl, by simp [Call.toValue, Call.ofText]⟩
  name := by simp [Call.toValue, Call.ofText, TextCall.asked]
  named := h.named
  arguments := ⟨_, by simp [Call.toValue, Call.ofText], spells_orElse_braces h.arguments⟩

/-- The text of a message is read from what is sent of it. -/
theorem saysText_orElse {m : Message} (h : m.content.IsOptionalText) :
    SaysText (m.content.orElse .null) m.text := by
  rw [h.orElse_null]
  by_cases htext : m.text = ""
  · have hempty : m.content.textOrEmpty = "" := htext
    rw [if_pos hempty, htext]
    exact .nothing
  · have hsome : ¬m.content.textOrEmpty = "" := htext
    rw [if_neg hsome]
    exact .text m.text

/-- An entry with calls says its text and asks for its calls. -/
theorem says_calls {m : Message} {calls : List TextCall} (label : Value)
    (hcontent : m.content.IsOptionalText) (hsound : ∀ call ∈ calls, call.Sound) :
    Says ((Vendor.openAI label).responseOf
        (Turn.calls (m.content.orElse .null) (calls.map Call.ofText)).toValue)
      ⟨m.text, calls.map (TextCall.asked true)⟩ := by
  have hchoices : ((Vendor.openAI label).responseOf
      (Turn.calls (m.content.orElse .null) (calls.map Call.ofText)).toValue).read "choices" =
        .list [.dict [("message",
          (Turn.calls (m.content.orElse .null) (calls.map Call.ofText)).toValue)]] := by
    simp [Vendor.responseOf]
  have hmade : ((Turn.calls (m.content.orElse .null) (calls.map Call.ofText)).toValue.read
      "tool_calls").ifNull (.list []) = .list ((calls.map Call.ofText).map Call.toValue) := by
    simp [Turn.toValue, Value.ifNull]
  refine .reply hchoices (by simp [Turn.toValue]) ?_ (by simpa using hmade) ?_ ⟨?_, ?_⟩
  · simpa [Turn.toValue] using saysText_orElse hcontent
  · rw [List.forall₂_map_left_iff]
    apply List.forall₂_map_right_iff.2
    exact List.forall₂_same.2 fun call hcall => asks_ofText (hsound call hcall)
  · exact .inl (by simp [Vendor.responseOf])
  · exact .inl (by simp [Vendor.responseOf])

end OpenAI

namespace Anthropic

theorem saysBlock_text (text : String) :
    SaysBlock (textBlock (.str text)) ⟨text, []⟩ :=
  .text (by simp [textBlock]) (by simp [textBlock, Value.ifNull])

/-- What the second vendor is sent of a sound call asks for it. -/
theorem saysBlock_ofText {call : TextCall} (h : call.Sound) :
    SaysBlock (ToolUse.ofText call).toValue ⟨"", [call.asked true]⟩ :=
  .call (by simp [ToolUse.toValue]) (by simp [ToolUse.toValue, ToolUse.ofText]) h.identified
    (by simp [ToolUse.toValue, ToolUse.ofText]) h.named
    (by simp [ToolUse.toValue, ToolUse.ofText, Value.ifNull]) h.arguments.tree

/-- An entry with calls says its text and asks for its calls. -/
theorem says_calls {m : Message} {calls : List TextCall} (hcontent : m.content.IsOptionalText)
    (hsound : ∀ call ∈ calls, call.Sound) :
    Says (Vendor.anthropic.responseOf
        (Turn.toolUses (if m.content.truthy then some m.content else none)
          (calls.map ToolUse.ofText)).toValue)
      ⟨m.text, calls.map (TextCall.asked true)⟩ := by
  have htext := forall₂_textPieces hcontent saysBlock_text
  have hcalls : List.Forall₂ SaysBlock ((calls.map ToolUse.ofText).map ToolUse.toValue)
      (calls.map fun call => ⟨"", [call.asked true]⟩) := by
    rw [List.map_map, List.forall₂_map_left_iff, List.forall₂_map_right_iff]
    exact List.forall₂_same.2 fun call hcall => saysBlock_ofText (hsound call hcall)
  rw [← join_textPieces]
  refine .reply ?_ (List.rel_append htext hcalls) ⟨?_, ?_⟩
  · simp [Vendor.responseOf, Turn.toValue, Turn.content]
  · exact .inl (by simp [Vendor.responseOf])
  · exact .inl (by simp [Vendor.responseOf])

end Anthropic

namespace Google

theorem saysPart_text (text : String) :
    SaysPart (textPart (.str text)) ⟨text, []⟩ := by
  have h : SaysPart (textPart (.str text)) ⟨((textPart (.str text)).read "text").textOrEmpty, []⟩ :=
    .text (by simp [textPart, Value.truthy]) (by simp [callIn, Value.field_pair, textPart])
      (.inr ⟨text, by simp [textPart]⟩)
  simpa [textPart, Value.textOrEmpty, Value.text?] using h

/-- What the third vendor is sent of a sound call asks for it, without its id. -/
theorem saysPart_ofText {call : TextCall} (h : call.Sound) :
    SaysPart (FunctionCall.ofText call).toValue ⟨"", [call.asked false]⟩ := by
  have hcall : callIn (FunctionCall.ofText call).toValue =
      .dict [("name", .str call.name), ("args", .dict call.fields)] := by
    simp [callIn, Value.field_pair, FunctionCall.toValue, FunctionCall.ofText, Value.ifNull]
  refine .call ?_ ?_ ?_ ?_ h.named ?_ h.arguments.tree
  · simp [FunctionCall.toValue, Value.truthy]
  · simp [hcall]
  · rw [hcall]
    exact .missing (by simp [Value.truthy])
  · simp [hcall]
  · simp [hcall, Value.ifNull]

/-- An entry with calls says its text and asks for its calls, which have lost their ids. -/
theorem says_calls {m : Message} {calls : List TextCall} (tag : String)
    (hcontent : m.content.IsOptionalText) (hsound : ∀ call ∈ calls, call.Sound) :
    Says ((Vendor.google tag).responseOf
        (Turn.calls (if m.content.truthy then some m.content else none)
          (calls.map FunctionCall.ofText)).toValue)
      ⟨m.text, calls.map (TextCall.asked false)⟩ := by
  have htext := forall₂_textPieces hcontent saysPart_text
  have hcalls : List.Forall₂ SaysPart ((calls.map FunctionCall.ofText).map FunctionCall.toValue)
      (calls.map fun call => ⟨"", [call.asked false]⟩) := by
    rw [List.map_map, List.forall₂_map_left_iff, List.forall₂_map_right_iff]
    exact List.forall₂_same.2 fun call hcall => saysPart_ofText (hsound call hcall)
  rw [← join_textPieces]
  refine .reply (by simp [Vendor.responseOf]; exact ⟨rfl, rfl⟩) ?_
    (List.rel_append htext hcalls) ⟨?_, ?_⟩
  · simp [Turn.toValue, Turn.parts, Value.ifNull]
  · exact .inl (by simp [Vendor.responseOf, Value.field_pair])
  · exact .inl (by simp [Vendor.responseOf, Value.field_pair])

end Google

/-! ## The round trip -/

/-- A call comes back from a round trip: with its name, the object that its arguments decode to,
and its id, if entries hold ids. -/
structure ComesBack (vendor : Vendor) (call back : TextCall) : Prop where
  name : back.name = call.name
  id : vendor.keepsIds = true → back.id = call.id
  arguments : ∃ fields, call.toCall.argumentFields = .ok fields ∧
    back.toCall.argumentFields = .ok fields

/-- An answer to what was asked is the call that comes back. -/
theorem ComesBack.of_answers {vendor : Vendor} {call back : TextCall} (hcall : call.WellSpelled)
    (h : Answers (call.asked vendor.keepsIds) back) : ComesBack vendor call back where
  name := h.name
  id := by
    intro hids
    exact h.id call.id (by simp [TextCall.asked, hids])
  arguments := ⟨call.fields, hcall.argumentFields, TextCall.argumentFields_eq_ok_iff.2 h.arguments⟩

namespace Payload

variable {vendor : Vendor}

/-- The entry of a message with calls stands behind the entries of the turns before it, and taken
for a reply it says what the message says. -/
theorem says_of_entries {before later : List Message} {m : Message} {system : Value}
    {all : List Value} {calls : List TextCall} (hrole : m.hasRole "assistant" = true)
    (hcontent : m.content.IsOptionalText) (hcalls : m.toolCalls = calls.map TextCall.toValue)
    (hsome : calls ≠ []) (hsound : ∀ call ∈ calls, call.Sound)
    (h : entries vendor (before ++ m :: later) system = .ok all) :
    ∃ earlier entry rest, entries vendor before system = .ok earlier ∧
      all = earlier ++ entry :: rest ∧
      vendor.Says (vendor.responseOf entry)
        ⟨m.text, calls.map (TextCall.asked vendor.keepsIds)⟩ := by
  have hspelled : ∀ call ∈ calls, call.WellSpelled := fun call hcall =>
    (hsound call hcall).arguments
  have hany : m.toolCalls ≠ [] := by simpa [hcalls] using hsome
  obtain ⟨earlier, entry, rest, hearlier, hall, hentry⟩ := exists_callEntry hrole hany h
  refine ⟨earlier, entry, rest, hearlier, hall, ?_⟩
  cases hentry with
  | @openAI label made forms =>
    rw [hcalls, OpenAI.mapM_call_ofValue] at forms
    cases forms
    exact OpenAI.says_calls label hcontent hsound
  | anthropic forms =>
    rw [hcalls, Anthropic.mapM_toolUse_ofValue hspelled] at forms
    cases forms
    exact Anthropic.says_calls hcontent hsound
  | @google tag made forms =>
    rw [hcalls, Google.mapM_functionCall_ofValue hspelled] at forms
    cases forms
    exact Google.says_calls tag hcontent hsound

/-- Wherever a message with calls stands in a conversation that is carried to a vendor, its entry,
taken for a complete reply of the vendor, is read as a message with the same content and the same
calls. -/
theorem readReply_of_adapt {messages systemPrompt tools : Value} {before later : List Message}
    {m : Message} {payload : Payload} {calls : List TextCall}
    (hms : Conversation.ofValue messages = .ok (before ++ m :: later))
    (h : adapt vendor messages systemPrompt tools = .ok payload)
    (hrole : m.hasRole "assistant" = true) (hcontent : m.content.IsOptionalText)
    (hcalls : m.toolCalls = calls.map TextCall.toValue) (hsome : calls ≠ [])
    (hsound : ∀ call ∈ calls, call.Sound) :
    ∃ earlier entry rest, entries vendor (Conversation.turns before) payload.system = .ok earlier ∧
      payload.messages = .list (earlier ++ entry :: rest) ∧
      ∃ reply backs, vendor.readReply (vendor.responseOf entry) = .ok reply ∧
        reply.content = m.content.orElse .null ∧ reply.toolCalls = backs.map TextCall.toValue ∧
        List.Forall₂ (ComesBack vendor) calls backs := by
  obtain ⟨-, all, hall, hpayload⟩ := entries_of_adapt hms h
  have hsystem : m.hasRole "system" = false := Message.not_hasRole hrole (by decide)
  -- the message is a turn, so it parts the turns where it parts the messages
  have hturns : Conversation.turns (before ++ m :: later) =
      Conversation.turns before ++ m :: Conversation.turns later := by
    simp [Conversation.turns, hsystem]
  rw [hturns] at hall
  obtain ⟨earlier, entry, rest, hearlier, rfl, hsays⟩ :=
    says_of_entries hrole hcontent hcalls hsome hsound hall
  obtain ⟨reply, backs, hread, hrepeats⟩ := Vendor.readReply_of_says hsays
  refine ⟨earlier, entry, rest, hearlier, hpayload, reply, backs, hread, ?_, hrepeats.toolCalls, ?_⟩
  · rw [hrepeats.content, hcontent.orElse_null]
    by_cases htext : m.content.textOrEmpty = "" <;>
      simp [Speech.content, hsome, Message.text, htext]
  -- a call that answers one that is carried comes back
  · have hanswers := hrepeats.answers
    rw [List.forall₂_map_left_iff] at hanswers
    have hspelled : ∀ call ∈ calls, call.WellSpelled := fun call hcall =>
      (hsound call hcall).arguments
    refine ((List.forall₂_and_left calls backs).2 ⟨hspelled, hanswers⟩).imp ?_
    rintro call back ⟨hcall, hback⟩
    exact .of_answers hcall hback

/-- Two calls, one with a repeated key, a nested list and an escaped character beyond the basic
plane, the other with blank arguments. -/
def placeCalls : List TextCall :=
  [⟨"p1", "find", r#"{"at": 1, "at": ["\ud83d\ude00", {"deep": null}]}"#⟩,
    ⟨"p2", "find", " "⟩]

def placeMessage : Message where
  role := .str "assistant"
  content := .str ""
  toolCalls := placeCalls.map TextCall.toValue

def placeMessages : List Message :=
  [{ role := .str "user", content := .str "Where?" }, placeMessage]

/-- Two calls, one with a key given twice and characters beyond the basic plane, come back from the
vendor that keeps no ids. -/
theorem readReply_of_adapt_places :
    ∃ payload earlier entry rest reply backs,
      adapt (.google "tag") (.list (placeMessages.map Message.toValue)) .null .null = .ok payload ∧
      payload.messages = .list (earlier ++ entry :: rest) ∧
      (Vendor.google "tag").readReply ((Vendor.google "tag").responseOf entry) = .ok reply ∧
      reply.content = .null ∧ reply.toolCalls = backs.map TextCall.toValue ∧
      List.Forall₂ (ComesBack (.google "tag")) placeCalls backs := by
  have hok : (adapt (.google "tag") (.list (placeMessages.map Message.toValue))
      .null .null).isOk = true := by
    decide +kernel
  obtain ⟨payload, hpayload⟩ := Outcome.of_isOk hok
  have hms : Conversation.ofValue (.list (placeMessages.map Message.toValue)) =
      .ok ([{ role := .str "user", content := .str "Where?" }] ++ placeMessage :: []) :=
    rfl
  have hcalls : placeMessage.toolCalls = placeCalls.map TextCall.toValue := rfl
  have hsound : ∀ call ∈ placeCalls, call.Sound := by
    decide +kernel
  obtain ⟨earlier, entry, rest, -, hmessages, reply, backs, hread, hcontent, hback⟩ :=
    readReply_of_adapt hms hpayload rfl (.inr ⟨"", rfl⟩) hcalls (by simp [placeCalls]) hsound
  exact ⟨payload, earlier, entry, rest, reply, backs, hpayload, hmessages, hread, hcontent, hback⟩

end Payload

end Parley
