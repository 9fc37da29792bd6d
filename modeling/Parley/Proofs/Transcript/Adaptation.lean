import Parley.Proofs.Conversation
import Parley.Proofs.Payload
import Parley.Proofs.Transcript.Anthropic
import Parley.Proofs.Transcript.Google
import Parley.Proofs.Transcript.OpenAI

/-!
# A conversation keeps what it says

Carrying a conversation to a vendor changes the form of its messages and nothing else: read off the
payload, the conversation says the same things in the same order. `Payload.tells_adapt`: every
message is told, in order, once, and nothing besides.
-/

namespace Parley

/-- What the turns of a conversation say is what all of its messages say. -/
theorem tells_of_turns {vendor : Vendor} {ms : List Message} {told : List (List Item)}
    (h : List.Forall₂ (Tells vendor) (Conversation.turns ms) told) :
    ∃ all, List.Forall₂ (Tells vendor) ms all ∧ all.flatten = told.flatten := by
  induction ms generalizing told with
  | nil =>
    cases h
    exact ⟨[], .nil, rfl⟩
  | cons m rest ih =>
    -- a system message is told nothing, and the turns go without it
    by_cases hsystem : m.hasRole "system" = true
    · have hturns : Conversation.turns (m :: rest) = Conversation.turns rest := by
        simp [Conversation.turns, hsystem]
      rw [hturns] at h
      obtain ⟨all, hall, hflat⟩ := ih h
      exact ⟨[] :: all, .cons (.system hsystem) hall, by simp [hflat]⟩
    · have hturns : Conversation.turns (m :: rest) = m :: Conversation.turns rest := by
        simp [Conversation.turns, hsystem]
      rw [hturns] at h
      cases h with
      | cons hhead htail =>
        obtain ⟨all, hall, hflat⟩ := ih htail
        exact ⟨_ :: all, .cons hhead hall, by simp [hflat]⟩

namespace Payload

variable {vendor : Vendor}

/-- The entries of turns say what the turns say. -/
theorem tells_entries {ms : List Message} {system : Value} {entries : List Value}
    (htyped : ∀ m ∈ ms, m.WellTyped) (hroles : ∀ m ∈ ms, m.IsTurn)
    (h : Payload.entries vendor ms system = .ok entries) :
    ∃ told, List.Forall₂ (Tells vendor) ms told ∧
      Transcript.read vendor (.list entries) = told.flatten := by
  cases vendor with
  | openAI label =>
    obtain ⟨turns, hturns, h⟩ := Outcome.of_bind_eq_ok h
    cases h
    exact OpenAI.tells_turns htyped hroles hturns
  | anthropic =>
    obtain ⟨turns, hturns, h⟩ := Outcome.of_bind_eq_ok h
    cases h
    exact Anthropic.tells_turns htyped hroles hturns
  | google tag =>
    obtain ⟨turns, hturns, h⟩ := Outcome.of_bind_eq_ok h
    cases h
    exact Google.tells_turns htyped hroles hturns

/-- Read off its payload from front to back, a conversation of texts says what its messages say:
each message what it has to, in the order of the messages, and nothing besides. -/
theorem tells_adapt {messages systemPrompt tools : Value} {ms : List Message} {payload : Payload}
    (hms : Conversation.ofValue messages = .ok ms) (htyped : ∀ m ∈ ms, m.WellTyped)
    (h : adapt vendor messages systemPrompt tools = .ok payload) :
    ∃ told, List.Forall₂ (Tells vendor) ms told ∧
      Transcript.read vendor payload.messages = told.flatten := by
  obtain ⟨-, entries, hentries, hpayload⟩ := entries_of_adapt hms h
  have hturns : ∀ m ∈ Conversation.turns ms, m.WellTyped := fun m hm =>
    htyped m (List.mem_of_mem_filter hm)
  have hroles : ∀ m ∈ Conversation.turns ms, m.IsTurn := Conversation.isTurn_of_mem_turns hms
  obtain ⟨told, htold, hread⟩ := tells_entries hturns hroles hentries
  obtain ⟨all, hall, hflat⟩ := tells_of_turns htold
  exact ⟨all, hall, by rw [hpayload, hread, hflat]⟩

/-- A conversation with a system message, two calls, one of them without arguments, and their
results, the first of which is written with blanks around its id. -/
def weatherMessages : List Message :=
  [{ role := .str "system", content := .str "Be brief." },
    { role := .str "user", content := .str "Weather?" },
    { role := .str "assistant"
      toolCalls := [TextCall.toValue ⟨"c1", "weather", r#"{"city": "Oslo"}"#⟩,
        TextCall.toValue ⟨"c2", "weather", ""⟩] },
    { role := .str "tool", content := .str "rain", toolCallId := .str " c1 " },
    { role := .str "tool", content := .str r#"{"sun": true}"#, toolCallId := .str "c2" }]

theorem wellTyped_weatherMessages : ∀ m ∈ weatherMessages, m.WellTyped := by
  intro m hm
  simp only [weatherMessages, List.mem_cons, List.not_mem_nil, or_false] at hm
  rcases hm with rfl | rfl | rfl | rfl | rfl
  · exact ⟨.inr ⟨_, rfl⟩, .inl rfl, .inl rfl, [], rfl⟩
  · exact ⟨.inr ⟨_, rfl⟩, .inl rfl, .inl rfl, [], rfl⟩
  · exact ⟨.inl rfl, .inl rfl, .inl rfl, [⟨_, _, _⟩, ⟨_, _, _⟩], rfl⟩
  · exact ⟨.inr ⟨_, rfl⟩, .inr ⟨_, rfl⟩, .inl rfl, [], rfl⟩
  · exact ⟨.inr ⟨_, rfl⟩, .inr ⟨_, rfl⟩, .inl rfl, [], rfl⟩

theorem ofValue_weatherMessages :
    Conversation.ofValue (.list (weatherMessages.map Message.toValue)) = .ok weatherMessages :=
  rfl

/-- A question about the weather, two calls, a result of each and an answer are told to the vendor.
-/
theorem tells_adapt_weather :
    ∃ payload told,
      adapt .anthropic (.list (weatherMessages.map Message.toValue)) .null .null = .ok payload ∧
      List.Forall₂ (Tells .anthropic) weatherMessages told ∧
      Transcript.read .anthropic payload.messages = told.flatten := by
  have hok : (adapt .anthropic (.list (weatherMessages.map Message.toValue))
      .null .null).isOk = true := by
    decide +kernel
  obtain ⟨payload, hpayload⟩ := Outcome.of_isOk hok
  obtain ⟨told, htold, hread⟩ :=
    tells_adapt ofValue_weatherMessages wellTyped_weatherMessages hpayload
  exact ⟨payload, told, hpayload, htold, hread⟩

end Payload

end Parley
