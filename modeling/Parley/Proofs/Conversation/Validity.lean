import Parley.Proofs.Conversation

/-!
# Valid conversations

Which conversations of texts pass the check, said in terms of the messages alone, and what is
reported of the others.

* `Conversation.Fits`: a message that may stand behind the messages before it;
* `Conversation.Breaks`: what is wrong with one that may not, by the first rule that it breaks;
* `Conversation.ofValue_verdict`: a conversation passes exactly if it is not empty and every message
  fits, and of any other the first message that does not fit is reported, with its position.

The check carries along the ids of the calls made so far. What these are is said by `Knows`, and
`checkFrom_of_valid` brings the check to any message behind messages that fit.
-/

namespace Parley.Conversation

/-! ## The rules -/

/-- An assistant among some messages makes a call with an id. -/
def Announced (before : List Message) (id : String) : Prop :=
  ∃ n ∈ before, n.hasRole "assistant" = true ∧
    ∃ call : TextCall, call.toValue ∈ n.toolCalls ∧ call.id = id

/-- A message that may stand behind some others: its role is known, only an assistant makes calls,
and a call that is answered under an id has been made with that id before. -/
structure Fits (before : List Message) (m : Message) : Prop where
  role : ∃ role ∈ Message.roles, m.hasRole role = true
  calls : m.toolCalls ≠ [] → m.hasRole "assistant" = true
  answer : m.hasRole "tool" = true → m.answered ≠ "" → Announced before m.answered

/-- What is wrong with a message behind some others, by the first rule that it breaks. Its position
is the number of the messages before it. -/
inductive Breaks (before : List Message) (m : Message) : MessageFault → Prop where
  | role (unknown : ∀ role ∈ Message.roles, m.hasRole role = false) :
      Breaks before m (.unknownRole m.role before.length)
  | calls (known : ∃ role ∈ Message.roles, m.hasRole role = true) (made : m.toolCalls ≠ [])
      (other : m.hasRole "assistant" = false) :
      Breaks before m (.callsOutsideAssistant m.role before.length)
  | answer (known : ∃ role ∈ Message.roles, m.hasRole role = true)
      (allowed : m.toolCalls ≠ [] → m.hasRole "assistant" = true) (tool : m.hasRole "tool" = true)
      (named : m.answered ≠ "") (unannounced : ¬Announced before m.answered) :
      Breaks before m (.unknownCall before.length m.answered)

def Valid (ms : List Message) : Prop :=
  ∀ before m after, ms = before ++ m :: after → Fits before m

/-- The first message that does not fit, and what is wrong with it. -/
def FirstBreak (ms : List Message) (cause : MessageFault) : Prop :=
  ∃ before m after, ms = before ++ m :: after ∧ Valid before ∧ Breaks before m cause

/-- An id is announced by the messages before the last one or by the last one. -/
theorem announced_concat {before : List Message} {m : Message} {id : String} :
    Announced (before ++ [m]) id ↔ Announced before id ∨ (m.hasRole "assistant" = true ∧
      ∃ call : TextCall, call.toValue ∈ m.toolCalls ∧ call.id = id) := by
  simp only [Announced, List.mem_append, List.mem_singleton, or_and_right, exists_or,
    exists_eq_left]

/-- A message that breaks a rule does not fit. -/
theorem Breaks.not_fits {before : List Message} {m : Message} {cause : MessageFault}
    (h : Breaks before m cause) : ¬Fits before m := by
  intro hfits
  cases h with
  | role hunknown =>
    rcases hfits.role with ⟨role, hmem, hrole⟩
    rw [hunknown role hmem] at hrole
    cases hrole
  | calls hknown hmade hother =>
    rw [hfits.calls hmade] at hother
    cases hother
  | answer hknown hallowed htool hnamed hnone => exact hnone (hfits.answer htool hnamed)

/-- A message fits, or it breaks one of the rules. -/
theorem fits_or_breaks (before : List Message) (m : Message) :
    Fits before m ∨ ∃ cause, Breaks before m cause := by
  by_cases hrole : ∃ role ∈ Message.roles, m.hasRole role = true
  · by_cases hcalls : m.toolCalls ≠ [] → m.hasRole "assistant" = true
    · by_cases hanswer : m.hasRole "tool" = true → m.answered ≠ "" → Announced before m.answered
      · exact .inl ⟨hrole, hcalls, hanswer⟩
      · simp only [Classical.not_imp] at hanswer
        rcases hanswer with ⟨htool, hnamed, hnone⟩
        exact .inr ⟨_, .answer hrole hcalls htool hnamed hnone⟩
    · simp only [Classical.not_imp] at hcalls
      exact .inr ⟨_, .calls hrole hcalls.1 (by simpa using hcalls.2)⟩
  · have hunknown : ∀ role ∈ Message.roles, m.hasRole role = false := by simpa using hrole
    exact .inr ⟨_, .role hunknown⟩

/-- What is reported of a message says where it stands. -/
theorem Breaks.exists_position {before : List Message} {m : Message} {cause : MessageFault}
    (h : Breaks before m cause) :
    ∃ front back, cause.message = front ++ " at position " ++ toString before.length ++ back := by
  cases h with
  | role hunknown =>
    refine ⟨"Invalid message role " ++ m.role.shown, "", ?_⟩
    rw [String.append_empty]
    rfl
  | calls hknown hmade hother =>
    exact ⟨"Only assistant messages may carry tool calls (role " ++ m.role.shown, ")", rfl⟩
  | answer hknown hallowed htool hnamed hnone =>
    refine ⟨"Tool message", " answers unknown tool call " ++ (Value.str m.answered).shown, ?_⟩
    have hfront : ("Tool message" ++ " at position " : String) = "Tool message at position " := by
      decide
    rw [hfront, ← String.append_assoc]
    rfl

/-- What is reported of a message can be worded if its role can be shown. -/
theorem Breaks.fault_eq {before : List Message} {m : Message} {cause : MessageFault}
    (h : Breaks before m cause) (hrole : m.role.printable = true) :
    cause.fault = .invalidMessage cause := by
  refine MessageFault.fault_of_printable ?_
  cases h with
  | role => exact hrole
  | calls => exact hrole
  | answer => rfl

/-! ## Valid conversations -/

theorem valid_nil : Valid [] := by
  intro before m after h
  cases before <;> cases h

/-- A conversation is valid if what comes before its last message is and the last message fits. -/
theorem valid_concat_iff {before : List Message} {m : Message} :
    Valid (before ++ [m]) ↔ Valid before ∧ Fits before m := by
  constructor
  · intro h
    refine ⟨?_, h before m [] rfl⟩
    rintro earlier n later rfl
    exact h earlier n (later ++ [m]) (by simp)
  · rintro ⟨hbefore, hm⟩ earlier n later hsplit
    -- the message is the last one, or one of those before it
    rcases List.eq_nil_or_concat' later with rfl | ⟨others, last, rfl⟩
    · rcases List.append_inj' hsplit rfl with ⟨rfl, hlast⟩
      cases hlast
      exact hm
    · rw [← List.cons_append, ← List.append_assoc] at hsplit
      rcases List.append_inj' hsplit rfl with ⟨hsame, -⟩
      exact hbefore earlier n others hsame

/-- What comes after the first break makes no difference to it. -/
theorem FirstBreak.append {ms : List Message} {cause : MessageFault} (h : FirstBreak ms cause)
    (later : List Message) : FirstBreak (ms ++ later) cause := by
  rcases h with ⟨before, m, after, rfl, hvalid, hbreaks⟩
  exact ⟨before, m, after ++ later, by simp, hvalid, hbreaks⟩

/-- A conversation is valid, or it has a first break. -/
theorem valid_or_firstBreak (ms : List Message) :
    Valid ms ∨ ∃ cause, FirstBreak ms cause := by
  induction ms using List.reverseRecOn with
  | nil => exact .inl valid_nil
  | append_singleton before m ih =>
    rcases ih with hvalid | ⟨cause, hbreak⟩
    · rcases fits_or_breaks before m with hfits | ⟨cause, hbreaks⟩
      · exact .inl (valid_concat_iff.2 ⟨hvalid, hfits⟩)
      · exact .inr ⟨cause, before, m, [], rfl, hvalid, hbreaks⟩
    · exact .inr ⟨cause, hbreak.append [m]⟩

/-- A conversation with a break is not valid. -/
theorem FirstBreak.not_valid {ms : List Message} {cause : MessageFault} (h : FirstBreak ms cause) :
    ¬Valid ms := by
  rcases h with ⟨before, m, after, rfl, -, hbreaks⟩
  intro hvalid
  exact hbreaks.not_fits (hvalid before m after rfl)

/-! ## The check -/

/-- The known ids are those of the calls made in some messages that can be named. -/
def Knows (before : List Message) (known : List String) : Prop :=
  ∀ id, id ∈ known ↔ id ≠ "" ∧ Announced before id

section Step

variable {before : List Message} {known : List String} {m : Message}

theorem any_roles_iff :
    Message.roles.any m.hasRole = true ↔ ∃ role ∈ Message.roles, m.hasRole role = true :=
  List.any_eq_true

/-- The id a message answers can be told if the parts of the message are texts. -/
theorem answeredId_of_typed (hm : m.WellTyped) :
    answeredId m = .ok (if m.hasRole "tool" = true then m.answered else "") := by
  rw [answeredId]
  split
  · exact hm.answeredId
  · rfl

/-- A message that fits passes, and its calls are known behind it. -/
theorem checkMessage_of_fits (hknows : Knows before known) (hm : m.WellTyped) (h : Fits before m)
    (position : Nat) :
    ∃ next, checkMessage position known m = .ok next ∧ Knows (before ++ [m]) next := by
  rcases hm.toolCalls with ⟨calls, hcalls⟩
  have hids : callIds m.toolCalls = .ok ((calls.map TextCall.id).filter (· ≠ "")) := by
    rw [hcalls]
    exact callIds_map_toValue calls
  refine ⟨known ++ (calls.map TextCall.id).filter (· ≠ ""), ?_, ?_⟩
  · refine checkMessage_eq_ok_iff.2 ⟨any_roles_iff.2 h.role, ?_, _, _, hids,
      answeredId_of_typed hm, ?_, rfl⟩
    · exact or_iff_not_imp_left.2 h.calls
    · by_cases hsilent : m.hasRole "tool" = true ∧ m.answered ≠ ""
      · rw [if_pos hsilent.1]
        have hmade : m.answered ∈ known :=
          (hknows m.answered).2 ⟨hsilent.2, h.answer hsilent.1 hsilent.2⟩
        exact .inr (List.mem_append_left _ hmade)
      · left
        split
        · rename_i htool
          by_contra hnamed
          exact hsilent ⟨htool, hnamed⟩
        · rfl
  · intro id
    have hmade : (∃ call : TextCall, call.toValue ∈ m.toolCalls ∧ call.id = id) ↔
        id ∈ calls.map TextCall.id := by
      simp [hcalls, TextCall.toValue_injective.eq_iff]
    have hassistant : (∃ call : TextCall, call.toValue ∈ m.toolCalls ∧ call.id = id) →
        m.hasRole "assistant" = true := by
      rintro ⟨call, hcall, -⟩
      exact h.calls (List.ne_nil_of_mem hcall)
    rw [announced_concat, and_iff_right_of_imp hassistant, hmade, List.mem_append, hknows id,
      List.mem_filter]
    simp only [decide_eq_true_eq]
    tauto

/-- A message that does not fit is reported. -/
theorem checkMessage_of_breaks (hknows : Knows before known) (hm : m.WellTyped)
    {cause : MessageFault} (h : Breaks before m cause) :
    checkMessage before.length known m = invalid cause := by
  cases h with
  | role hunknown =>
    have hrole : Message.roles.any m.hasRole = false := by simpa using hunknown
    simp [checkMessage, hrole]
  | calls hknown hmade hother =>
    simp [checkMessage, any_roles_iff.2 hknown, hmade, hother]
  | answer hknown hallowed htool hnamed hnone =>
    -- a message that answers a call is no assistant's, and so makes none
    have hother : m.hasRole "assistant" = false := Message.not_hasRole htool (by decide)
    have hsilent : m.toolCalls = [] := by
      by_contra hmade
      rw [hallowed hmade] at hother
      cases hother
    have hanswered : answeredId m = .ok m.answered := by
      rw [answeredId_of_typed hm, if_pos htool]
    have hfail : m.answered ≠ "" ∧ m.answered ∉ known := by
      refine ⟨hnamed, ?_⟩
      intro hmem
      exact hnone ((hknows m.answered).1 hmem).2
    simp [checkMessage, any_roles_iff.2 hknown, hsilent, callIds, hanswered, hfail.1, hfail.2,
      bind, Except.bind]

end Step

/-- Behind messages that fit, the check goes on with the ids of their calls. -/
theorem checkFrom_of_valid {before : List Message} (hvalid : Valid before)
    (htyped : ∀ m ∈ before, m.WellTyped) :
    ∃ known, Knows before known ∧
      ∀ later, checkFrom 0 [] (before ++ later) = checkFrom before.length known later := by
  -- the invariant of the check, message by message from the front
  induction before using List.reverseRecOn with
  | nil =>
    refine ⟨[], ?_, fun later => rfl⟩
    intro id
    simp [Announced]
  | append_singleton before m ih =>
    rcases valid_concat_iff.1 hvalid with ⟨hbefore, hfits⟩
    rcases List.forall_mem_append.1 htyped with ⟨htyped, hm⟩
    rcases ih hbefore htyped with ⟨known, hknows, hcheck⟩
    rcases checkMessage_of_fits hknows (hm m (by simp)) hfits before.length with
      ⟨next, hpass, hnext⟩
    refine ⟨next, hnext, ?_⟩
    intro later
    calc checkFrom 0 [] (before ++ [m] ++ later)
        = checkFrom before.length known (m :: later) := by
          rw [List.append_assoc]
          exact hcheck (m :: later)
      _ = checkFrom (before.length + 1) next later := by
          rw [checkFrom, Outcome.bind_of_ok hpass]
      _ = checkFrom (before ++ [m]).length next later := by rw [List.length_append]; rfl

variable {ms : List Message}

/-- A valid conversation passes the check. -/
theorem checkFrom_eq_ok_of_valid (hvalid : Valid ms) (htyped : ∀ m ∈ ms, m.WellTyped) :
    checkFrom 0 [] ms = .ok () := by
  rcases checkFrom_of_valid hvalid htyped with ⟨known, -, hcheck⟩
  have hend := hcheck []
  rwa [List.append_nil] at hend

/-- The check stops at the first message that does not fit. -/
theorem checkFrom_of_firstBreak {cause : MessageFault} (h : FirstBreak ms cause)
    (htyped : ∀ m ∈ ms, m.WellTyped) : checkFrom 0 [] ms = invalid cause := by
  rcases h with ⟨before, m, after, rfl, hvalid, hbreaks⟩
  rcases List.forall_mem_append.1 htyped with ⟨hbefore, hrest⟩
  rcases checkFrom_of_valid hvalid hbefore with ⟨known, hknows, hcheck⟩
  rw [hcheck, checkFrom, checkMessage_of_breaks hknows (hrest m List.mem_cons_self) hbreaks]
  rfl

theorem valid_of_checkFrom (htyped : ∀ m ∈ ms, m.WellTyped) (h : checkFrom 0 [] ms = .ok ()) :
    Valid ms := by
  rcases valid_or_firstBreak ms with hvalid | ⟨cause, hbreak⟩
  · exact hvalid
  · rw [checkFrom_of_firstBreak hbreak htyped] at h
    cases h

/-- The check passes the conversations that are valid and not empty. -/
theorem check_eq_ok_iff_valid (htyped : ∀ m ∈ ms, m.WellTyped) :
    check ms = .ok () ↔ ms ≠ [] ∧ Valid ms := by
  by_cases hnone : ms = []
  · subst hnone
    simp [check]
  · rw [check_eq_checkFrom hnone, and_iff_right hnone]
    exact ⟨valid_of_checkFrom htyped, fun hvalid => checkFrom_eq_ok_of_valid hvalid htyped⟩

/-- The check fails for an empty conversation, or for the first break. -/
theorem check_eq_error_iff (htyped : ∀ m ∈ ms, m.WellTyped) {fault : Fault} :
    check ms = .error fault ↔
      (ms = [] ∧ fault = .noMessages) ∨
        ∃ cause, FirstBreak ms cause ∧ fault = cause.fault := by
  rcases valid_or_firstBreak ms with hvalid | ⟨cause, hbreak⟩
  · have hno : ¬∃ cause, FirstBreak ms cause ∧ fault = cause.fault := by
      rintro ⟨cause, hbreak, -⟩
      exact hbreak.not_valid hvalid
    rw [or_iff_left hno]
    by_cases hnone : ms = []
    · simp [check, hnone, eq_comm]
    · rw [(check_eq_ok_iff_valid htyped).2 ⟨hnone, hvalid⟩]
      simp [hnone]
  · have hsome : ms ≠ [] := by
      rintro rfl
      exact hbreak.not_valid valid_nil
    have hcheck : check ms = invalid cause := by
      rw [check_eq_checkFrom hsome, checkFrom_of_firstBreak hbreak htyped]
    rw [hcheck, or_iff_right (by simp [hsome])]
    constructor
    · rintro ⟨⟩
      exact ⟨cause, hbreak, rfl⟩
    · rintro ⟨other, hother, rfl⟩
      -- two first faults are reported as one, for the check reports both
      rw [check_eq_checkFrom hsome, checkFrom_of_firstBreak hother htyped] at hcheck
      exact hcheck.symm

/-! ## The verdict -/

/-- Messages of texts are given back as they are exactly if there is one and all of them fit. Else
it is reported that there is none, or what is wrong with the first one that does not fit, and where
it stands; only a role that cannot be shown leaves nothing to be reported but a misuse. -/
theorem ofValue_verdict {raw : Value} (hgives : Gives raw ms) (htyped : ∀ m ∈ ms, m.WellTyped) :
    (∀ found, ofValue raw = .ok found ↔ found = ms ∧ ms ≠ [] ∧ Valid ms) ∧
    (∀ fault, ofValue raw = .error fault ↔
      (ms = [] ∧ fault = .noMessages) ∨
        ∃ cause, FirstBreak ms cause ∧ fault = cause.fault) ∧
    ∀ before m cause, Breaks before m cause →
      (m.role.printable = true → cause.fault = .invalidMessage cause) ∧
      ∃ front back,
        cause.message = front ++ " at position " ++ toString before.length ++ back := by
  refine ⟨?_, ?_, fun before m cause hbreaks => ⟨hbreaks.fault_eq, hbreaks.exists_position⟩⟩
  · intro found
    rw [ofValue_eq_ok_iff hgives, check_eq_ok_iff_valid htyped]
    exact and_comm
  · intro fault
    rw [ofValue_eq_error_iff hgives, check_eq_error_iff htyped]

/-- A question, a call, and its result, which names the call with a blank around its id. -/
def tideMessages : List Message :=
  [{ role := .str "user", content := .str "When is high tide?" },
    { role := .str "assistant", toolCalls := [TextCall.toValue ⟨"c1", "tide", ""⟩] },
    { role := .str "tool", content := .str "noon", toolCallId := .str " c1" }]

def strayMessage : Message :=
  { role := .str "tool", content := .str "rain", toolCallId := .str "c2" }

def narration : Message :=
  { role := .str "narrator", content := .str "The end." }

theorem wellTyped_tideMessages : ∀ m ∈ tideMessages ++ [strayMessage, narration], m.WellTyped := by
  intro m hm
  simp only [tideMessages, List.cons_append, List.nil_append, List.mem_cons, List.not_mem_nil,
    or_false] at hm
  rcases hm with rfl | rfl | rfl | rfl | rfl
  · exact ⟨.inr ⟨_, rfl⟩, .inl rfl, .inl rfl, [], rfl⟩
  · exact ⟨.inl rfl, .inl rfl, .inl rfl, [⟨_, _, _⟩], rfl⟩
  · exact ⟨.inr ⟨_, rfl⟩, .inr ⟨_, rfl⟩, .inl rfl, [], rfl⟩
  · exact ⟨.inr ⟨_, rfl⟩, .inr ⟨_, rfl⟩, .inl rfl, [], rfl⟩
  · exact ⟨.inr ⟨_, rfl⟩, .inl rfl, .inl rfl, [], rfl⟩

theorem not_announced_stray : ¬Announced tideMessages "c2" := by
  rintro ⟨n, hn, -, call, hcall, hid⟩
  simp only [tideMessages, List.mem_cons, List.not_mem_nil, or_false] at hn
  rcases hn with rfl | rfl | rfl
  · cases hcall
  · rw [TextCall.toValue_injective (List.mem_singleton.1 hcall)] at hid
    exact absurd hid (by decide)
  · cases hcall

/-- In a conversation about the tide, a message that answers no call is the first break, and it is
reported before a role that is unknown. -/
theorem ofValue_verdict_tide :
    Valid tideMessages ∧
    FirstBreak (tideMessages ++ [strayMessage, narration]) (.unknownCall 3 "c2") ∧
    ofValue (.list ((tideMessages ++ [strayMessage, narration]).map Message.toValue)) =
      .error (.invalidMessage (.unknownCall 3 "c2")) := by
  have htyped := wellTyped_tideMessages
  have hpass : ofValue (.list (tideMessages.map Message.toValue)) = .ok tideMessages := rfl
  have hvalid : Valid tideMessages :=
    ((ofValue_verdict (gives_map_toValue tideMessages) fun m hm =>
      htyped m (List.mem_append_left _ hm)).1 tideMessages).1 hpass |>.2.2
  -- the narrator behind the stray result is not what is reported
  have hbreak : FirstBreak (tideMessages ++ [strayMessage, narration]) (.unknownCall 3 "c2") := by
    refine ⟨tideMessages, strayMessage, [narration], rfl, hvalid, ?_⟩
    have hanswered : strayMessage.answered = "c2" := by decide
    have hstray : Breaks tideMessages strayMessage
        (.unknownCall tideMessages.length strayMessage.answered) :=
      .answer ⟨"tool", by decide, rfl⟩ (by simp [strayMessage]) rfl (by decide)
        (by rw [hanswered]; exact not_announced_stray)
    rwa [hanswered] at hstray
  refine ⟨hvalid, hbreak, ?_⟩
  exact ((ofValue_verdict (gives_map_toValue _) htyped).2.1 _).2 (.inr ⟨_, hbreak, rfl⟩)

end Parley.Conversation
