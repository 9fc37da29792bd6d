import Parley.Conversation
import Parley.Proofs.Message.Report
import Parley.Proofs.Value.Reading

/-!
# Checked conversations

What is known of the messages of a conversation once it has passed its check, and which
conversations pass it.
-/

namespace Parley.Conversation

/-- A message of a known role: a system message or a turn. -/
theorem isTurn_of_known {m : Message} (h : Message.roles.any m.hasRole = true)
    (hsystem : m.hasRole "system" = false) : m.IsTurn := by
  rcases List.any_eq_true.1 h with ⟨role, hmem, hrole⟩
  simp only [Message.roles, List.mem_cons, List.not_mem_nil, or_false] at hmem
  rcases hmem with rfl | rfl | rfl | rfl
  · exact .inl hrole
  · exact .inr (.inl hrole)
  · rw [hrole] at hsystem
    cases hsystem
  · exact .inr (.inr hrole)

/-- A message passes exactly if its role is known, only an assistant makes calls, and the id that it
answers, if it answers one, is that of a call made so far. -/
theorem checkMessage_eq_ok_iff {position : Nat} {known next : List String} {m : Message} :
    checkMessage position known m = .ok next ↔
      Message.roles.any m.hasRole = true ∧
      (m.toolCalls = [] ∨ m.hasRole "assistant" = true) ∧
      ∃ ids id, callIds m.toolCalls = .ok ids ∧ answeredId m = .ok id ∧
        (id = "" ∨ id ∈ known ++ ids) ∧ next = known ++ ids := by
  unfold checkMessage
  by_cases hrole : Message.roles.any m.hasRole = true
  · by_cases hcalls : m.toolCalls = [] ∨ m.hasRole "assistant" = true
    · have hrefused : (!m.toolCalls.isEmpty && !m.hasRole "assistant") = false := by
        rcases hcalls with h | h <;> simp [h]
      simp only [hrole, hrefused, hcalls, Bool.not_true, Bool.false_eq_true, if_false,
        Outcome.bind_eq_ok_iff, true_and]
      refine exists_congr fun ids => ?_
      rw [exists_and_left]
      refine and_congr_right fun _ => exists_congr fun id => and_congr_right fun _ => ?_
      by_cases hknown : id = "" ∨ id ∈ known ++ ids
      · have hpass : ¬(id ≠ "" ∧ id ∉ known ++ ids) := by tauto
        rw [if_neg hpass, and_iff_right hknown]
        simp [pure, Except.pure, eq_comm]
      · have hfail : id ≠ "" ∧ id ∉ known ++ ids := by tauto
        rw [if_pos hfail]
        exact iff_of_false (by simp [invalid]) fun hboth => hknown hboth.1
    · have hrefused : (!m.toolCalls.isEmpty && !m.hasRole "assistant") = true := by
        rw [not_or] at hcalls
        simp [hcalls.1, hcalls.2]
      simp [hrole, hrefused, hcalls, invalid]
  · simp [hrole, invalid]

/-- A message that passes the check has one of the four roles. -/
theorem known_of_checkMessage {position : Nat} {known next : List String} {m : Message}
    (h : checkMessage position known m = .ok next) : Message.roles.any m.hasRole = true :=
  (checkMessage_eq_ok_iff.1 h).1

/-- Where a message stands is only told if it does not pass. -/
theorem checkMessage_of_place {position : Nat} {known next : List String} {m : Message}
    (h : checkMessage position known m = .ok next) (place : Nat) :
    checkMessage place known m = .ok next :=
  checkMessage_eq_ok_iff.2 (checkMessage_eq_ok_iff.1 h)

/-- A message that passes and is not an assistant's leaves the known ids as they are. -/
theorem known_of_not_assistant {position : Nat} {known next : List String} {m : Message}
    (h : checkMessage position known m = .ok next) (hrole : m.hasRole "assistant" = false) :
    m.toolCalls = [] ∧ next = known := by
  obtain ⟨-, hcalls, ids, id, hids, -, -, rfl⟩ := checkMessage_eq_ok_iff.1 h
  rw [hrole, or_iff_left (by simp)] at hcalls
  rw [hcalls] at hids
  cases hids
  exact ⟨hcalls, List.append_nil known⟩

/-- A message without calls that answers none passes, and makes no id known. -/
theorem checkMessage_of_silent {m : Message} {role : String} (position : Nat)
    (known : List String) (hrole : m.hasRole role = true) (hmem : role ∈ Message.roles)
    (htool : role ≠ "tool") (hcalls : m.toolCalls = []) :
    checkMessage position known m = .ok known := by
  have hids : callIds m.toolCalls = .ok [] := by
    rw [hcalls]
    rfl
  have hanswered : answeredId m = .ok "" := by
    rw [answeredId, Message.not_hasRole hrole htool]
    rfl
  exact checkMessage_eq_ok_iff.2 ⟨List.any_eq_true.2 ⟨role, hmem, hrole⟩, .inl hcalls,
    [], "", hids, hanswered, .inl rfl, (List.append_nil known).symm⟩

/-- In a conversation that passes the check every role is known. -/
theorem known_of_checkFrom {position : Nat} {known : List String} {ms : List Message}
    (h : checkFrom position known ms = .ok ()) :
    ∀ m ∈ ms, Message.roles.any m.hasRole = true := by
  induction ms generalizing position known with
  | nil =>
    intro m hm
    cases hm
  | cons first rest ih =>
    -- the known ids change from message to message, the check of the role does not depend on them
    obtain ⟨next, hnext, h⟩ := Outcome.of_bind_eq_ok h
    intro m hm
    rcases List.mem_cons.1 hm with rfl | hm
    · exact known_of_checkMessage hnext
    · exact ih h m hm

/-- What is taken for a conversation has passed the check. -/
theorem check_of_ofValue {raw : Value} {ms : List Message} (h : ofValue raw = .ok ms) :
    check ms = .ok () := by
  unfold ofValue at h
  split at h
  · cases h
  · obtain ⟨items, -, h⟩ := Outcome.of_bind_eq_ok h
    obtain ⟨found, -, h⟩ := Outcome.of_bind_eq_ok h
    obtain ⟨⟨⟩, hcheck, h⟩ := Outcome.of_bind_eq_ok h
    cases h
    exact hcheck

/-- A conversation that passes is not empty, so its messages are checked one by one. -/
theorem checkFrom_of_check {ms : List Message} (h : check ms = .ok ()) :
    checkFrom 0 [] ms = .ok () := by
  unfold check at h
  split at h
  · cases h
  · exact h

theorem checkFrom_of_ofValue {raw : Value} {ms : List Message} (h : ofValue raw = .ok ms) :
    checkFrom 0 [] ms = .ok () :=
  checkFrom_of_check (check_of_ofValue h)

/-- In a checked conversation every message that is no system message is a turn. -/
theorem isTurn_of_mem_turns {raw : Value} {ms : List Message} (h : ofValue raw = .ok ms) :
    ∀ m ∈ turns ms, m.IsTurn := by
  intro m hm
  obtain ⟨hmem, hsystem⟩ := List.mem_filter.1 hm
  have hrole : m.hasRole "system" = false := by simpa using hsystem
  exact isTurn_of_known (known_of_checkFrom (checkFrom_of_ofValue h) m hmem) hrole

theorem turns_cons_system {m : Message} (h : m.hasRole "system" = true) (rest : List Message) :
    turns (m :: rest) = turns rest := by
  simp [turns, h]

theorem turns_cons_turn {m : Message} (h : m.hasRole "system" = false) (rest : List Message) :
    turns (m :: rest) = m :: turns rest := by
  simp [turns, h]

/-- There are no turns exactly if there are system messages only. -/
theorem turns_eq_nil_iff {ms : List Message} :
    turns ms = [] ↔ ∀ m ∈ ms, m.hasRole "system" = true := by
  simp [turns]

theorem turns_turns (ms : List Message) : turns (turns ms) = turns ms := by
  simp [turns]

/-- If a conversation passes, its turns do, for system messages make no calls. -/
theorem checkFrom_turns {position : Nat} {known : List String} {ms : List Message}
    (h : checkFrom position known ms = .ok ()) (place : Nat) :
    checkFrom place known (turns ms) = .ok () := by
  induction ms generalizing position known place with
  | nil => rfl
  | cons m rest ih =>
    obtain ⟨next, hpass, h⟩ := Outcome.of_bind_eq_ok h
    cases hsystem : m.hasRole "system" with
    | true =>
      have hknown := known_of_not_assistant hpass (Message.not_hasRole hsystem (by decide))
      rw [turns_cons_system hsystem, ← hknown.2]
      exact ih h place
    | false =>
      rw [turns_cons_turn hsystem, checkFrom,
        Outcome.bind_of_ok (checkMessage_of_place hpass place)]
      exact ih h (place + 1)

/-- In a conversation that passes only an assistant makes calls. -/
theorem assistant_of_checkFrom {position : Nat} {known : List String} {ms : List Message}
    (h : checkFrom position known ms = .ok ()) :
    ∀ m ∈ ms, m.toolCalls ≠ [] → m.hasRole "assistant" = true := by
  induction ms generalizing position known with
  | nil =>
    intro m hm
    cases hm
  | cons first rest ih =>
    obtain ⟨next, hpass, hrest⟩ := Outcome.of_bind_eq_ok h
    intro m hm hcalls
    rcases List.mem_cons.1 hm with rfl | hm
    · exact (checkMessage_eq_ok_iff.1 hpass).2.1.resolve_left hcalls
    · exact ih hrest m hm hcalls

/-- A system message with calls does not pass the check. -/
theorem system_calls_of_checkFrom {position : Nat} {known : List String} {ms : List Message}
    (h : checkFrom position known ms = .ok ()) :
    ∀ m ∈ ms, m.hasRole "system" = true → m.toolCalls = [] := by
  intro m hm hsystem
  by_contra hcalls
  have hassistant := assistant_of_checkFrom h m hm hcalls
  rw [Message.not_hasRole hsystem (by decide)] at hassistant
  cases hassistant

/-- A conversation passes exactly if its turns do and no system message makes calls. -/
theorem checkFrom_eq_ok_iff_turns {position : Nat} {known : List String} {ms : List Message}
    (place : Nat) :
    checkFrom position known ms = .ok () ↔
      (∀ m ∈ ms, m.hasRole "system" = true → m.toolCalls = []) ∧
        checkFrom place known (turns ms) = .ok () := by
  refine ⟨fun h => ⟨system_calls_of_checkFrom h, checkFrom_turns h place⟩, ?_⟩
  rintro ⟨hcalls, h⟩
  -- system messages move the others to later places, and add nothing to what is known
  induction ms generalizing position known place with
  | nil => rfl
  | cons m rest ih =>
    have hrest : ∀ n ∈ rest, n.hasRole "system" = true → n.toolCalls = [] :=
      fun n hn => hcalls n (List.mem_cons_of_mem m hn)
    cases hsystem : m.hasRole "system" with
    | true =>
      rw [turns_cons_system hsystem] at h
      have hpass := checkMessage_of_silent position known hsystem (by decide) (by decide)
        (hcalls m List.mem_cons_self hsystem)
      rw [checkFrom, Outcome.bind_of_ok hpass]
      exact ih place hrest h
    | false =>
      rw [turns_cons_turn hsystem] at h
      rcases Outcome.of_bind_eq_ok h with ⟨next, hpass, h⟩
      rw [checkFrom, Outcome.bind_of_ok (checkMessage_of_place hpass position)]
      exact ih (place + 1) hrest h

/-- Without system messages there is no text of theirs. -/
theorem systemParts_of_none {ms : List Message} (h : ∀ m ∈ ms, m.hasRole "system" = false) :
    systemParts ms = [] := by
  have hnone : ms.filter (·.hasRole "system") = [] := List.filter_eq_nil_iff.2 fun m hm => by
    simp [h m hm]
  simp [systemParts, hnone]

/-- Without system messages, the instruction is the fallback and every message a turn. -/
theorem systemPrompt_of_none {ms : List Message} (h : ∀ m ∈ ms, m.hasRole "system" = false)
    (fallback : Value) : systemPrompt ms fallback = .ok fallback := by
  simp [systemPrompt, systemParts_of_none h]

theorem turns_of_none {ms : List Message} (h : ∀ m ∈ ms, m.hasRole "system" = false) :
    turns ms = ms :=
  List.filter_eq_self.2 fun m hm => by simp [h m hm]

/-! ## The system instruction -/

def systemTexts (ms : List Message) : List String :=
  (ms.filter (·.hasRole "system")).map Message.text

/-- Of messages of texts the instruction can be made, and it depends on the texts of the system
messages alone. -/
theorem systemPrompt_of_typed {ms : List Message} (h : ∀ m ∈ ms, m.WellTyped) (fallback : Value) :
    systemPrompt ms fallback = .ok (if systemTexts ms = [] then fallback
      else .str ("\n\n".intercalate (systemTexts ms))) := by
  have hparts : systemParts ms = (systemTexts ms).map Value.str := by
    rw [systemParts, systemTexts, List.map_map]
    apply List.map_congr_left
    intro m hm
    exact (h m (List.mem_of_mem_filter hm)).content.orElse_empty
  rw [systemPrompt, hparts]
  cases htexts : systemTexts ms with
  | nil => rfl
  | cons text rest =>
    have hall := Value.mapM_text?_map_str (text :: rest)
    rw [List.map_cons] at hall
    simp [hall]

/-! ## Conversations that pass -/

/-- The messages that a value gives, whether or not they pass the check. -/
def Gives (raw : Value) (ms : List Message) : Prop :=
  ∃ items, raw.items = .ok items ∧ items.mapM Message.ofValue = .ok ms

/-- Of messages that a value gives, nothing remains to be done but to check them. -/
theorem ofValue_of_gives {raw : Value} {ms : List Message} (h : Gives raw ms) :
    ofValue raw = (do check ms; return ms) := by
  rcases h with ⟨items, hitems, hread⟩
  have hsome : raw.isNull = false := by
    cases raw with
    | null => cases hitems
    | _ => rfl
  rw [ofValue, hsome, if_neg (by simp), Outcome.bind_of_ok hitems, Outcome.bind_of_ok hread]

/-- The messages of a list are read one by one. -/
theorem mapM_of_ofValue {items : List Value} {ms : List Message}
    (h : ofValue (.list items) = .ok ms) : items.mapM Message.ofValue = .ok ms := by
  obtain ⟨_, ⟨⟩, h⟩ := Outcome.of_bind_eq_ok h
  obtain ⟨found, hfound, h⟩ := Outcome.of_bind_eq_ok h
  obtain ⟨⟨⟩, -, h⟩ := Outcome.of_bind_eq_ok h
  cases h
  exact hfound

/-- Where an item of a list stands, the message stands that it is read as. -/
theorem exists_split {front back : List Value} {raw : Value} {ms : List Message}
    (h : ofValue (.list (front ++ raw :: back)) = .ok ms) :
    ∃ before m later, front.mapM Message.ofValue = .ok before ∧ Message.ofValue raw = .ok m ∧
      ms = before ++ m :: later := by
  have hall := mapM_of_ofValue h
  rw [List.mapM_append] at hall
  obtain ⟨before, hbefore, hall⟩ := Outcome.of_bind_eq_ok hall
  obtain ⟨behind, hbehind, hall⟩ := Outcome.of_bind_eq_ok hall
  cases hall
  rw [List.mapM_cons] at hbehind
  obtain ⟨m, hm, hbehind⟩ := Outcome.of_bind_eq_ok hbehind
  obtain ⟨later, -, hbehind⟩ := Outcome.of_bind_eq_ok hbehind
  cases hbehind
  exact ⟨before, m, later, hbefore, hm, rfl⟩

/-- Entries that give messages are a conversation exactly if the messages pass the check. -/
theorem ofValue_eq_ok_iff {raw : Value} {ms found : List Message} (h : Gives raw ms) :
    ofValue raw = .ok found ↔ check ms = .ok () ∧ found = ms := by
  rw [ofValue_of_gives h, Outcome.bind_eq_ok_iff]
  constructor
  · rintro ⟨⟨⟩, hcheck, ⟨⟩⟩
    exact ⟨hcheck, rfl⟩
  · rintro ⟨hcheck, rfl⟩
    exact ⟨(), hcheck, rfl⟩

/-- Entries that give messages fail with the fault of the check, and with no other. -/
theorem ofValue_eq_error_iff {raw : Value} {ms : List Message} {fault : Fault}
    (h : Gives raw ms) : ofValue raw = .error fault ↔ check ms = .error fault := by
  rw [ofValue_of_gives h, Outcome.bind_eq_error_iff]
  simp [pure, Except.pure]

/-- Messages are read back from the objects they are. -/
theorem mapM_ofValue_toValue (ms : List Message) :
    (ms.map Message.toValue).mapM Message.ofValue = .ok ms := by
  have h : (ms.map Message.toValue).mapM Message.ofValue = .ok (ms.map id) :=
    Outcome.mapM_map_of_ok fun m _ => Message.ofValue_toValue m
  simpa using h

theorem ofValue_of_read {entries : List Value} {ms : List Message}
    (hread : entries.mapM Message.ofValue = .ok ms) (hcheck : check ms = .ok ()) :
    ofValue (.list entries) = .ok ms :=
  (ofValue_eq_ok_iff ⟨entries, rfl, hread⟩).2 ⟨hcheck, rfl⟩

theorem ofValue_of_check {ms : List Message} (h : check ms = .ok ()) :
    ofValue (.list (ms.map Message.toValue)) = .ok ms :=
  ofValue_of_read (mapM_ofValue_toValue ms) h

/-- Of the ids of calls, those can be named that are not empty. -/
theorem callIds_map_toValue (calls : List TextCall) :
    callIds (calls.map TextCall.toValue) = .ok ((calls.map TextCall.id).filter (· ≠ "")) := by
  induction calls with
  | nil => rfl
  | cons call rest ih =>
    have hattr : call.toValue.attr "id" = .ok (.str call.id) := rfl
    rw [List.map_cons, callIds, Outcome.bind_of_ok hattr]
    by_cases hid : call.id = ""
    · simp [hid, Value.truthy, ih]
    · simp only [Value.truthy_str.2 hid, if_true, Value.hashable]
      rw [Outcome.bind_of_ok ih, List.map_cons, List.filter_cons_of_pos (by simpa using hid)]
      rfl

theorem gives_map_toValue (ms : List Message) : Gives (.list (ms.map Message.toValue)) ms :=
  ⟨_, rfl, mapM_ofValue_toValue ms⟩

theorem check_eq_checkFrom {ms : List Message} (h : ms ≠ []) : check ms = checkFrom 0 [] ms := by
  rw [check, if_neg (by simpa using h)]

/-- A user's message without calls passes the check and makes nothing known. -/
theorem checkMessage_of_user {m : Message} (position : Nat) (known : List String)
    (hrole : m.hasRole "user" = true) (hcalls : m.toolCalls = []) :
    checkMessage position known m = .ok known :=
  checkMessage_of_silent position known hrole (by decide) (by decide) hcalls

/-- An assistant answers no call, so what is known behind its message are the ids of its calls. -/
theorem checkMessage_of_assistant {m : Message} (position : Nat) (known : List String)
    (hrole : m.hasRole "assistant" = true) :
    checkMessage position known m = do return known ++ (← callIds m.toolCalls) := by
  have hknown : Message.roles.any m.hasRole = true :=
    List.any_eq_true.2 ⟨"assistant", by decide, hrole⟩
  have hanswered : answeredId m = .ok "" := by
    rw [answeredId, Message.not_hasRole hrole (by decide)]
    rfl
  simp only [checkMessage, hknown, hrole, hanswered, Bool.not_true, Bool.and_false,
    Bool.false_eq_true, if_false]
  rfl

/-- Calls make those of their ids known that can be named. -/
theorem checkMessage_of_calls {m : Message} {calls : List TextCall} (position : Nat)
    (known : List String) (hrole : m.hasRole "assistant" = true)
    (hcalls : m.toolCalls = calls.map TextCall.toValue) :
    checkMessage position known m =
      .ok (known ++ (calls.map TextCall.id).filter (· ≠ "")) := by
  rw [checkMessage_of_assistant position known hrole, hcalls,
    Outcome.bind_of_ok (callIds_map_toValue calls)]
  rfl

/-- A report passes the check if its call is known. -/
theorem checkMessage_of_report {report : Report} (position : Nat) {known : List String}
    (hid : UsableId report.id) (hknown : report.id ∈ known) :
    checkMessage position known report.toMessage = .ok known := by
  have hanswered : answeredId report.toMessage = .ok report.id := by
    simp [answeredId, hid.answeredId]
  simp [checkMessage, Message.roles, hanswered, callIds, hknown, bind, Except.bind, pure,
    Except.pure]

/-- Reports pass the check together if all their calls are known. -/
theorem checkFrom_reports {reports : List Report} (position : Nat) {known : List String}
    (hids : ∀ report ∈ reports, UsableId report.id)
    (hknown : ∀ report ∈ reports, report.id ∈ known) :
    checkFrom position known (reports.map Report.toMessage) = .ok () := by
  induction reports generalizing position with
  | nil => rfl
  | cons report rest ih =>
    have hfirst := checkMessage_of_report position (hids report (by simp)) (hknown report (by simp))
    rw [List.map_cons, checkFrom, Outcome.bind_of_ok hfirst]
    exact ih (position + 1) (fun r hr => hids r (by simp [hr])) fun r hr => hknown r (by simp [hr])

/-- An exchange and one report on each call of it pass the check. -/
theorem check_exchange {question reply : Message} {calls : List TextCall} {reports : List Report}
    (h : Exchange question reply calls) (hreports : ReportsOn calls reports) :
    check (question :: reply :: reports.map Report.toMessage) = .ok () := by
  have hknown : ∀ report ∈ reports, report.id ∈ [] ++ calls.map TextCall.id := by
    intro report hreport
    obtain ⟨call, hcall, hid⟩ := hreports.exists_call hreport
    rw [List.nil_append, ← hid]
    exact List.mem_map_of_mem hcall
  -- the reply makes the ids known that the reports then refer to
  have hquestion := checkMessage_of_user 0 [] h.asked h.callless
  have hreply := checkMessage_of_calls 1 [] h.replied h.made
  have hall : (calls.map TextCall.id).filter (· ≠ "") = calls.map TextCall.id := by
    refine List.filter_eq_self.2 fun id hid => ?_
    obtain ⟨call, hcall, rfl⟩ := List.mem_map.1 hid
    simpa using (h.distinguished.usable call hcall).nonempty
  rw [hall] at hreply
  rw [check, List.isEmpty_cons, if_neg (by simp), checkFrom, Outcome.bind_of_ok hquestion,
    checkFrom, Outcome.bind_of_ok hreply]
  exact checkFrom_reports 2 (hreports.usable h.distinguished) hknown

/-- Nothing in an exchange is a system message. -/
theorem not_system_of_exchange {question reply : Message} {calls : List TextCall}
    (h : Exchange question reply calls) (reports : List Report) :
    ∀ m ∈ question :: reply :: reports.map Report.toMessage, m.hasRole "system" = false := by
  intro m hm
  rcases List.mem_cons.1 hm with rfl | hm
  · exact Message.not_hasRole h.asked (by decide)
  · rcases List.mem_cons.1 hm with rfl | hm
    · exact Message.not_hasRole h.replied (by decide)
    · obtain ⟨report, -, rfl⟩ := List.mem_map.1 hm
      rfl

end Parley.Conversation
