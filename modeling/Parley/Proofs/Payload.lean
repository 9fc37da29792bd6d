import Parley.Payload
import Parley.Proofs.Conversation

/-!
# Payloads and their entries

Adaptation in terms of its two parts: the system instruction and the entries of the turns.
-/

namespace Parley.Payload

variable {vendor : Vendor} {messages systemPrompt : Value} {ms : List Message}

/-- A payload is made exactly if there is a system instruction and a turn, the turns have entries
and the tools can be declared. -/
theorem ofMessages_eq_ok_iff {tools : Value} {payload : Payload} :
    ofMessages vendor ms systemPrompt tools = .ok payload ↔
      ∃ system entries declared, Conversation.systemPrompt ms systemPrompt = .ok system ∧
        Conversation.turns ms ≠ [] ∧
        Payload.entries vendor (Conversation.turns ms) system = .ok entries ∧
        toolsOf vendor tools = .ok declared ∧
        payload = ⟨vendor.label, .list entries, system, declared⟩ := by
  rw [ofMessages, Outcome.bind_eq_ok_iff]
  refine exists_congr fun system => ?_
  by_cases hnone : Conversation.turns ms = []
  · simp [hnone]
  · have hsome : (Conversation.turns ms).isEmpty = false := by simpa using hnone
    simp only [hsome, Bool.false_eq_true, if_false, Outcome.bind_eq_ok_iff, ne_eq, hnone,
      not_false_eq_true, true_and]
    constructor
    · rintro ⟨hsystem, entries, hentries, declared, hdeclared, ⟨⟩⟩
      exact ⟨entries, declared, hsystem, hentries, hdeclared, rfl⟩
    · rintro ⟨entries, declared, hsystem, hentries, hdeclared, rfl⟩
      exact ⟨hsystem, entries, hentries, declared, hdeclared, rfl⟩

/-- A conversation with a turn is adapted exactly if it has a system instruction, its turns have
entries and the tools can be declared. -/
theorem adapt_eq_ok_iff {tools : Value} {payload : Payload}
    (hms : Conversation.ofValue messages = .ok ms) :
    adapt vendor messages systemPrompt tools = .ok payload ↔
      ∃ system entries declared, Conversation.systemPrompt ms systemPrompt = .ok system ∧
        Conversation.turns ms ≠ [] ∧
        Payload.entries vendor (Conversation.turns ms) system = .ok entries ∧
        toolsOf vendor tools = .ok declared ∧
        payload = ⟨vendor.label, .list entries, system, declared⟩ := by
  rw [adapt, Outcome.bind_of_ok hms, ofMessages_eq_ok_iff]

/-- Messages that a value gives are checked and made a payload of. -/
theorem adapt_of_gives {tools : Value} (h : Conversation.Gives messages ms) :
    adapt vendor messages systemPrompt tools =
      (do Conversation.check ms
          ofMessages vendor ms systemPrompt tools) := by
  rw [adapt, Conversation.ofValue_of_gives h, bind_assoc]
  rfl

/-- Messages that a value gives are adapted exactly if they pass the check and a payload can be made
of them. -/
theorem adapt_eq_ok_iff_of_gives {tools : Value} {payload : Payload}
    (h : Conversation.Gives messages ms) :
    adapt vendor messages systemPrompt tools = .ok payload ↔
      Conversation.check ms = .ok () ∧ ofMessages vendor ms systemPrompt tools = .ok payload := by
  rw [adapt_of_gives h, Outcome.bind_eq_ok_iff]
  constructor
  · rintro ⟨⟨⟩, hcheck, hmade⟩
    exact ⟨hcheck, hmade⟩
  · rintro ⟨hcheck, hmade⟩
    exact ⟨(), hcheck, hmade⟩

/-- A payload holds the entries of the turns of its conversation, next to the system instruction. -/
theorem entries_of_adapt {tools : Value} {payload : Payload}
    (hms : Conversation.ofValue messages = .ok ms)
    (h : adapt vendor messages systemPrompt tools = .ok payload) :
    Conversation.systemPrompt ms systemPrompt = .ok payload.system ∧
      ∃ entries, Payload.entries vendor (Conversation.turns ms) payload.system = .ok entries ∧
        payload.messages = .list entries := by
  obtain ⟨system, entries, declared, hsystem, -, hentries, -, rfl⟩ := (adapt_eq_ok_iff hms).1 h
  exact ⟨hsystem, entries, hentries, rfl⟩

/-- A conversation with a turn is adapted if its turns have entries. -/
theorem adapt_of_entries {system : Value} {entries : List Value}
    (hms : Conversation.ofValue messages = .ok ms) (hturns : Conversation.turns ms ≠ [])
    (hsystem : Conversation.systemPrompt ms systemPrompt = .ok system)
    (hentries : Payload.entries vendor (Conversation.turns ms) system = .ok entries) :
    adapt vendor messages systemPrompt .null =
      .ok ⟨vendor.label, .list entries, system, .null⟩ :=
  (adapt_eq_ok_iff hms).2 ⟨system, entries, .null, hsystem, hturns, hentries, rfl, rfl⟩

/-- A conversation whose turns have no entries is not adapted. -/
theorem adapt_of_error {system tools : Value} {fault : Fault}
    (hms : Conversation.ofValue messages = .ok ms) (hturns : Conversation.turns ms ≠ [])
    (hsystem : Conversation.systemPrompt ms systemPrompt = .ok system)
    (hentries : Payload.entries vendor (Conversation.turns ms) system = .error fault) :
    adapt vendor messages systemPrompt tools = .error fault := by
  have hsome : (Conversation.turns ms).isEmpty = false := by simpa using hturns
  rw [adapt, Outcome.bind_of_ok hms, ofMessages, Outcome.bind_of_ok hsystem]
  simp only [hsome, hentries, Bool.false_eq_true, if_false]
  rfl

end Parley.Payload
