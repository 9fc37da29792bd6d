import Parley.Proofs.Turn.Continuation

/-!
# Replies given back

A reply that is read from a vendor and put back into the conversation, behind a question and for the
same vendor, is the last entry of the payload: it has the text of the reply and its calls, one by
one, with the names and the arguments that the vendor sent.

* `Vendor.GivesBack`: the entry that a well-formed reply is to be given back as;
* `Payload.ends_with_reply`: it is given back as that entry.
-/

namespace Parley

/-! ## The entry of a reply -/

namespace OpenAI

/-- A reply as the service writes it: a text, and calls whose arguments are any texts. -/
inductive Writes (response : Value) (text : String) (calls : List TextCall) : Prop where
  | reply {choice : Value} {others raws : List Value}
      (choices : response.read "choices" = .list (choice :: others))
      (message : (choice.read "message").isNull = false)
      (said : SaysText ((choice.read "message").read "content") text)
      (made : ((choice.read "message").read "tool_calls").ifNull (.list []) = .list raws)
      (all : List.Forall₂ IsCall raws calls) (usage : Counts (response.read "usage"))

/-- The call as it is given back. It always has arguments. -/
def callBack (call : TextCall) : Value :=
  .dict [("id", .str call.id), ("type", .str "function"),
    ("function", .dict [("name", .str call.name),
      ("arguments", .str (if call.arguments = "" then "{}" else call.arguments))])]

/-- The reply as it is given back. Next to calls an empty text is left out. -/
def replyBack (text : String) (calls : List TextCall) : Value :=
  if calls = [] then .dict [("role", .str "assistant"), ("content", .str text)]
  else .dict [("role", .str "assistant"), ("content", if text = "" then .null else .str text),
    ("tool_calls", .list (calls.map callBack))]

end OpenAI

namespace Anthropic

def callBack (asked : AskedCall) : Value :=
  .dict [("type", .str "tool_use"), ("id", .str (asked.id.getD "")), ("name", .str asked.name),
    ("input", .dict asked.fields)]

/-- The reply as it is given back: with calls, a list of blocks. -/
def replyBack (speech : Speech) : Value :=
  .dict [("role", .str "assistant"), ("content",
    if speech.calls = [] then .str speech.text
    else .list ((if speech.text = "" then []
      else [.dict [("type", .str "text"), ("text", .str speech.text)]]) ++
        speech.calls.map callBack))]

end Anthropic

namespace Google

/-- The part of a call as it is given back, without its id. -/
def callBack (asked : AskedCall) : Value :=
  .dict [("function_call", .dict [("name", .str asked.name), ("args", .dict asked.fields)])]

/-- The reply as it is given back: next to calls an empty text is left out. -/
def replyBack (speech : Speech) : Value :=
  .dict [("role", .str "model"), ("parts",
    .list ((if speech.text = "" ∧ speech.calls ≠ [] then []
      else [.dict [("text", .str speech.text)]]) ++ speech.calls.map callBack))]

end Google

/-- A response is a well-formed reply of the vendor, and the entry is what it is to be given back
as. -/
def Vendor.GivesBack (vendor : Vendor) (response entry : Value) : Prop :=
  match vendor with
  | .openAI _ =>
    ∃ text calls, OpenAI.Writes response text calls ∧ entry = OpenAI.replyBack text calls
  | .anthropic => ∃ speech, Anthropic.Says response speech ∧ entry = Anthropic.replyBack speech
  | .google _ => ∃ speech, Google.Says response speech ∧ entry = Google.replyBack speech

/-! ## The message of a reply -/

/-- A message that says a text and makes calls, as a reply does. -/
structure Voices (m : Message) (text : String) (calls : List TextCall) : Prop where
  role : m.role = .str "assistant"
  content : m.content = if text = "" ∧ calls ≠ [] then .null else .str text
  toolCalls : m.toolCalls = calls.map TextCall.toValue

/-- A reply that repeats a speech voices its text and its calls. -/
theorem Repeats.voices {reply : Message} {speech : Speech} {calls : List TextCall}
    (h : Repeats reply speech calls) : Voices reply speech.text calls where
  role := h.role
  content := by
    have hnone : speech.calls.isEmpty = calls.isEmpty := isEmpty_of_forall₂ h.answers
    rw [h.content, Speech.content, hnone]
    simp
  toolCalls := h.toolCalls

namespace Voices

variable {m : Message} {text : String} {calls : List TextCall}

theorem hasRole (h : Voices m text calls) : m.hasRole "assistant" = true :=
  Message.hasRole_of_eq h.role

theorem orElse_empty (h : Voices m text calls) (hnone : calls = []) :
    m.content.orElse (.str "") = .str text := by
  rw [h.content, if_neg fun hboth => hboth.2 hnone, Value.orElse_empty_str]

theorem orElse_null (h : Voices m text calls) (hsome : calls ≠ []) :
    m.content.orElse .null = if text = "" then .null else .str text := by
  by_cases htext : text = "" <;> simp [h.content, hsome, htext, Value.orElse, Value.truthy]

theorem some_if_truthy (h : Voices m text calls) (hsome : calls ≠ []) :
    (if m.content.truthy then some m.content else none) =
      if text = "" then none else some (.str text) := by
  by_cases htext : text = "" <;> simp [h.content, hsome, htext, Value.truthy]

end Voices

/-- A response in the first vendor's form is read as what it says. -/
theorem OpenAI.exists_reply_of_writes {label response : Value} {text : String}
    {calls : List TextCall} (h : Writes response text calls) :
    ∃ reply, (Vendor.openAI label).readReply response = .ok reply ∧ Voices reply text calls := by
  rcases h with @⟨choice, others, raws, hchoices, hmessage, hsaid, hmade, hall, hcounts⟩
  rcases usageOf_of_counts hcounts with ⟨usage, husage⟩
  have hread := replyOf_of_choice (.openAI label) hchoices hmessage hsaid hmade hall husage
  refine ⟨_, by rw [Vendor.readReply, hread, Reply.checked_ok], rfl, ?_, ?_⟩
  · by_cases htext : text = "" <;>
      simp [Reply.message, Reply.content, Value.truthy, Value.orElse, htext]
  · simp [Reply.message, TextCall.toValue, Function.comp_def]

/-! ## Its entry -/

section Entries

variable {question reply : Message} {text : String} {speech : Speech} {calls : List TextCall}

/-- The reply becomes the entry that gives it back. -/
theorem OpenAI.ofMessage_reply (h : Voices reply text calls) :
    ∃ turn, Turn.ofMessage reply = .ok turn ∧ turn.toValue = replyBack text calls := by
  by_cases hnone : calls = []
  · subst hnone
    refine ⟨_, ofMessage_plain h.hasRole h.toolCalls, ?_⟩
    rw [h.orElse_empty rfl]
    rfl
  · refine ⟨_, ofMessage_calling h.hasRole h.toolCalls hnone, ?_⟩
    rw [h.orElse_null hnone, replyBack, if_neg hnone]
    simp [Turn.toValue, Call.toValue, Call.ofText, callBack]

theorem OpenAI.entries_reply (label system : Value) (hasked : question.hasRole "user" = true)
    (h : Voices reply text calls) :
    ∃ earlier, Payload.entries (.openAI label) [question, reply] system =
      .ok (earlier ++ [replyBack text calls]) := by
  obtain ⟨turn, hturn, hentry⟩ := ofMessage_reply h
  have hmap : [question, reply].mapM Turn.ofMessage =
      .ok [.user (question.content.orElse (.str "")), turn] := by
    rw [List.mapM_cons, Outcome.bind_of_ok (ofMessage_user hasked), List.mapM_cons,
      Outcome.bind_of_ok hturn]
    rfl
  rw [Payload.entries, turns, Outcome.bind_of_ok hmap, ← hentry]
  -- the instruction stands in front, if there is one
  by_cases hsystem : system.truthy = true
  · exact ⟨[(Turn.system system).toValue, (Turn.user (question.content.orElse (.str ""))).toValue],
      by simp [hsystem, pure, Except.pure, bind, Except.bind]⟩
  · exact ⟨[(Turn.user (question.content.orElse (.str ""))).toValue],
      by simp [hsystem, pure, Except.pure, bind, Except.bind]⟩

/-- The calls that a reply of the messages service asks for have ids. -/
theorem Anthropic.identified_of_says {response : Value} (h : Says response speech) :
    ∀ asked ∈ speech.calls, ∃ id, asked.id = some id := by
  rcases h with @⟨blocks, pieces, -, hall, -⟩
  clear * - hall
  induction hall with
  | nil => simp
  | @cons block piece blocks pieces hblock _ ih =>
    rw [Speech.calls_join_cons, List.forall_mem_append]
    refine ⟨?_, ih⟩
    cases hblock <;> simp

/-- The blocks of calls with ids are the blocks that made them. -/
theorem Anthropic.blocks_eq (h : List.Forall₂ Answers speech.calls calls)
    (hids : ∀ asked ∈ speech.calls, ∃ id, asked.id = some id) :
    (calls.map ToolUse.ofText).map ToolUse.toValue = speech.calls.map callBack := by
  rw [List.map_map]
  refine (map_eq_map_of_forall₂ h fun asked hasked call hanswers => ?_).symm
  obtain ⟨id, hid⟩ := hids asked hasked
  simp [callBack, ToolUse.toValue, ToolUse.ofText, hanswers.name, hanswers.id id hid, hid,
    TextCall.fields_eq_of_spells hanswers.arguments]

/-- The reply becomes the entry that gives it back, and is put into one of its own. -/
theorem Anthropic.ofMessage_reply (h : Repeats reply speech calls)
    (hids : ∀ asked ∈ speech.calls, ∃ id, asked.id = some id) :
    ∃ turn, Turn.ofMessage reply = .ok turn ∧ turn.toValue = replyBack speech ∧
      ∀ before, push before turn = .ok (turn :: before) := by
  have hnone : speech.calls = [] ↔ calls = [] := by
    simpa using Bool.eq_iff_iff.1 (isEmpty_of_forall₂ h.answers)
  by_cases hcalls : calls = []
  · have hplain : reply.toolCalls = [] := by simpa [hcalls] using h.toolCalls
    refine ⟨_, ofMessage_plain h.voices.hasRole hplain, ?_, ?_⟩
    · rw [h.voices.orElse_empty hcalls, replyBack, if_pos (hnone.2 hcalls)]
      rfl
    · rintro (_ | ⟨last, earlier⟩) <;> rfl
  · have hspelled : ∀ call ∈ calls, call.WellSpelled := fun call hcall =>
      (forall_of_answers h.answers call hcall).2
    have hturn := ofMessage_calling h.voices.hasRole h.toolCalls hcalls
    rw [Outcome.bind_of_ok (mapM_toolUse_ofValue hspelled), h.voices.some_if_truthy hcalls] at hturn
    refine ⟨_, hturn, ?_, fun before => push_toolUses before _ _⟩
    rw [Turn.toValue, Turn.content, blocks_eq h.answers hids, replyBack,
      if_neg fun hempty => hcalls (hnone.1 hempty)]
    by_cases htext : speech.text = "" <;> simp [htext, Turn.role, textBlock]

theorem Anthropic.entries_reply (system : Value) (hasked : question.hasRole "user" = true)
    (h : Repeats reply speech calls) (hids : ∀ asked ∈ speech.calls, ∃ id, asked.id = some id) :
    ∃ earlier, Payload.entries .anthropic [question, reply] system =
      .ok (earlier ++ [replyBack speech]) := by
  obtain ⟨turn, hturn, hentry, hpush⟩ := ofMessage_reply h hids
  have hfirst : push [] (.user (question.content.orElse (.str ""))) =
      .ok [.user (question.content.orElse (.str ""))] := rfl
  have hturns : turns [question, reply] =
      .ok [.user (question.content.orElse (.str "")), turn] := by
    rw [turns, turnsAfter, Outcome.bind_of_ok (ofMessage_user hasked), Outcome.bind_of_ok hfirst,
      turnsAfter, Outcome.bind_of_ok hturn, Outcome.bind_of_ok (hpush _)]
    rfl
  refine ⟨[(Turn.user (question.content.orElse (.str ""))).toValue], ?_⟩
  rw [Payload.entries, Outcome.bind_of_ok hturns, ← hentry]
  rfl

/-- The parts of calls are the parts that made them, but for the ids. -/
theorem Google.parts_eq (h : List.Forall₂ Answers speech.calls calls) :
    (calls.map FunctionCall.ofText).map FunctionCall.toValue = speech.calls.map callBack := by
  rw [List.map_map]
  refine (map_eq_map_of_forall₂ h fun asked _ call hanswers => ?_).symm
  simp [callBack, FunctionCall.toValue, FunctionCall.ofText, hanswers.name,
    TextCall.fields_eq_of_spells hanswers.arguments]

/-- The reply becomes the entry that gives it back, and is put into one of its own. -/
theorem Google.ofMessage_reply (seen : List Message) (h : Repeats reply speech calls) :
    ∃ turn, Turn.ofMessage seen reply = .ok turn ∧ turn.toValue = replyBack speech ∧
      ∀ before, push before turn = turn :: before := by
  have hnone : speech.calls = [] ↔ calls = [] := by
    simpa using Bool.eq_iff_iff.1 (isEmpty_of_forall₂ h.answers)
  by_cases hcalls : calls = []
  · have hplain : reply.toolCalls = [] := by simpa [hcalls] using h.toolCalls
    refine ⟨_, ofMessage_plain seen h.voices.hasRole hplain, ?_, ?_⟩
    · rw [h.voices.orElse_empty hcalls, replyBack, hnone.2 hcalls]
      simp [Turn.toValue, Turn.role, Turn.parts, textPart]
    · intro before
      cases before with
      | nil => rfl
      | cons last earlier => cases last <;> rfl
  · have hspelled : ∀ call ∈ calls, call.WellSpelled := fun call hcall =>
      (forall_of_answers h.answers call hcall).2
    have hturn := ofMessage_calling seen h.voices.hasRole h.toolCalls hcalls
    rw [Outcome.bind_of_ok (mapM_functionCall_ofValue hspelled),
      h.voices.some_if_truthy hcalls] at hturn
    refine ⟨_, hturn, ?_, fun before => push_calls before _ _⟩
    have hsome : speech.calls ≠ [] := fun hempty => hcalls (hnone.1 hempty)
    rw [Turn.toValue, Turn.parts, parts_eq h.answers, replyBack]
    by_cases htext : speech.text = "" <;> simp [htext, hsome, Turn.role, textPart]

theorem Google.entries_reply (tag : String) (system : Value)
    (hasked : question.hasRole "user" = true) (h : Repeats reply speech calls) :
    ∃ earlier, Payload.entries (.google tag) [question, reply] system =
      .ok (earlier ++ [replyBack speech]) := by
  obtain ⟨turn, hturn, hentry, hpush⟩ := ofMessage_reply [question] h
  have hturns : turns [question, reply] =
      .ok [.user (question.content.orElse (.str "")), turn] := by
    rw [turns, turnsAfter, Outcome.bind_of_ok (ofMessage_user [] hasked), turnsAfter,
      List.nil_append, Outcome.bind_of_ok hturn, hpush]
    rfl
  refine ⟨[(Turn.user (question.content.orElse (.str ""))).toValue], ?_⟩
  rw [Payload.entries, Outcome.bind_of_ok hturns, ← hentry]
  rfl

end Entries

/-! ## Giving a reply back -/

/-- A reply that is to be given back is read as a message that has its entry behind every
question. -/
theorem Vendor.GivesBack.exists_reply {vendor : Vendor} {response entry : Value}
    (h : vendor.GivesBack response entry) :
    ∃ reply text calls, vendor.readReply response = .ok reply ∧ Voices reply text calls ∧
      ∀ (question : Message) (system : Value), question.hasRole "user" = true →
        ∃ earlier, Payload.entries vendor [question, reply] system = .ok (earlier ++ [entry]) := by
  cases vendor with
  | openAI label =>
    obtain ⟨text, calls, hwrites, rfl⟩ := h
    obtain ⟨reply, hread, hvoices⟩ := OpenAI.exists_reply_of_writes hwrites
    exact ⟨reply, text, calls, hread, hvoices, fun question system hasked =>
      OpenAI.entries_reply label system hasked hvoices⟩
  | anthropic =>
    obtain ⟨speech, hsays, rfl⟩ := h
    have hspeech : Vendor.anthropic.Says response speech := hsays
    obtain ⟨reply, calls, hread, hrepeats⟩ := Vendor.readReply_of_says hspeech
    exact ⟨reply, speech.text, calls, hread, hrepeats.voices, fun question system hasked =>
      Anthropic.entries_reply system hasked hrepeats (Anthropic.identified_of_says hsays)⟩
  | google tag =>
    obtain ⟨speech, hsays, rfl⟩ := h
    have hspeech : (Vendor.google tag).Says response speech := hsays
    obtain ⟨reply, calls, hread, hrepeats⟩ := Vendor.readReply_of_says hspeech
    exact ⟨reply, speech.text, calls, hread, hrepeats.voices, fun question system hasked =>
      Google.entries_reply tag system hasked hrepeats⟩

/-- A question and a reply to it pass the check, whatever ids its calls have. -/
theorem Conversation.check_reply {question reply : Message} {text : String} {calls : List TextCall}
    (hasked : question.hasRole "user" = true) (hcallless : question.toolCalls = [])
    (hreply : Voices reply text calls) : check [question, reply] = .ok () := by
  rw [check, List.isEmpty_cons, if_neg (by simp), checkFrom,
    Outcome.bind_of_ok (checkMessage_of_user 0 [] hasked hcallless), checkFrom,
    Outcome.bind_of_ok (checkMessage_of_calls 1 [] hreply.hasRole hreply.toolCalls)]
  rfl

namespace Payload

variable {vendor : Vendor}

/-- A well-formed reply of a vendor is read, and put back into the conversation behind any question
of a user, in any form that a message can have, it is the last entry of the vendor's payload, as it
is to be given back. -/
theorem ends_with_reply {response entry : Value} (h : vendor.GivesBack response entry) :
    ∃ reply, vendor.readReply response = .ok reply ∧
      ∀ (raw : Value) (question : Message) (systemPrompt : Value),
        Message.ofValue raw = .ok question → question.hasRole "user" = true →
        question.toolCalls = [] →
        ∃ payload earlier, adapt vendor (.list [raw, reply.toValue]) systemPrompt .null =
            .ok payload ∧
          payload.messages = .list (earlier ++ [entry]) := by
  obtain ⟨reply, text, calls, hread, hvoices, hentries⟩ := h.exists_reply
  refine ⟨reply, hread, ?_⟩
  intro raw question systemPrompt hraw hasked hcallless
  have hms : Conversation.ofValue (.list [raw, reply.toValue]) = .ok [question, reply] := by
    have hread : [raw, reply.toValue].mapM Message.ofValue = .ok [question, reply] := by
      rw [List.mapM_cons, Outcome.bind_of_ok hraw, List.mapM_cons,
        Outcome.bind_of_ok reply.ofValue_toValue]
      rfl
    exact Conversation.ofValue_of_read hread (Conversation.check_reply hasked hcallless hvoices)
  have hnone : ∀ m ∈ [question, reply], m.hasRole "system" = false := by
    intro m hm
    simp only [List.mem_cons, List.not_mem_nil, or_false] at hm
    rcases hm with rfl | rfl
    · exact Message.not_hasRole hasked (by decide)
    · exact Message.not_hasRole hvoices.hasRole (by decide)
  have hturns := Conversation.turns_of_none hnone
  obtain ⟨earlier, hentries⟩ := hentries question systemPrompt hasked
  rw [← hturns] at hentries
  exact ⟨_, earlier, adapt_of_entries hms (by rw [hturns]; simp)
    (Conversation.systemPrompt_of_none hnone systemPrompt) hentries, rfl⟩

/-- Two calls, one without arguments, the other without an id and with arguments that break off. -/
def noteCalls : List TextCall :=
  [⟨"n1", "note", ""⟩, ⟨"", "note", r#"{"at": "#⟩]

def rawNote (call : TextCall) : Value :=
  .dict [("id", .str call.id), ("function",
    .dict [("name", .str call.name), ("arguments", .str call.arguments)])]

def noteResponse : Value :=
  .dict [("choices", .list [.dict [("message",
    .dict [("content", .str ""), ("tool_calls", .list (noteCalls.map rawNote))])]])]

def noteQuestion : Value :=
  .dict [("role", .str "user"), ("content", .str "Note it.")]

theorem writes_noteResponse : OpenAI.Writes noteResponse "" noteCalls := by
  refine .reply (by simp [noteResponse]; exact ⟨rfl, rfl⟩) (by simp) (by simpa using .text "")
    (by simp [Value.ifNull]; rfl) ?_ ⟨.inl rfl, .inl rfl⟩
  rw [List.forall₂_map_left_iff]
  refine List.forall₂_same.2 fun call hcall => ?_
  have hnamed : call.name ≠ "" := by
    simp only [noteCalls, List.mem_cons, List.not_mem_nil, or_false] at hcall
    rcases hcall with rfl | rfl <;> decide
  exact ⟨by simp [rawNote, Value.ifNull], by simp [rawNote], hnamed,
    by simp [rawNote, Value.ifNull]⟩

/-- Two calls, one without arguments and one without an id, are given back. -/
theorem ends_with_reply_notes :
    ∃ reply payload earlier, (Vendor.openAI (.str "openai")).readReply noteResponse = .ok reply ∧
      adapt (.openAI (.str "openai")) (.list [noteQuestion, reply.toValue]) .null .null =
        .ok payload ∧
      payload.messages = .list (earlier ++ [OpenAI.replyBack "" noteCalls]) := by
  have hback : (Vendor.openAI (.str "openai")).GivesBack noteResponse
      (OpenAI.replyBack "" noteCalls) :=
    ⟨"", noteCalls, writes_noteResponse, rfl⟩
  obtain ⟨reply, hread, hadapt⟩ := ends_with_reply hback
  obtain ⟨payload, earlier, hpayload, hmessages⟩ := hadapt noteQuestion
    { role := .str "user", content := .str "Note it." } .null rfl rfl rfl
  exact ⟨reply, payload, earlier, hread, hpayload, hmessages⟩

end Payload

end Parley
