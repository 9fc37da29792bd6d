import Parley.OpenAI.Turn
import Parley.Proofs.Message.Typed

/-!
# Turns of chat completions

The entry that each kind of message becomes, and where it stands: every message has an entry of its
own, behind those of the messages before.
-/

namespace Parley.OpenAI

/-! ## Entries of messages -/

/-- The call of an entry that is made of a call of texts. -/
def Call.ofText (call : TextCall) : Call :=
  ⟨.str call.id, .str call.name, .str (if call.arguments = "" then "{}" else call.arguments)⟩

theorem Call.ofValue_toValue (call : TextCall) :
    Call.ofValue call.toValue = .ok (Call.ofText call) := by
  by_cases h : call.arguments = "" <;>
    simp [Call.ofValue, Call.ofText, h, Value.orElse, Value.truthy, bind, Except.bind, pure,
      Except.pure]

theorem mapM_call_ofValue (calls : List TextCall) :
    (calls.map TextCall.toValue).mapM Call.ofValue = .ok (calls.map Call.ofText) :=
  Outcome.mapM_map_of_ok fun call _ => Call.ofValue_toValue call

/-- A user's message becomes its text. -/
theorem ofMessage_user {m : Message} (h : m.hasRole "user" = true) :
    Turn.ofMessage m = .ok (.user (m.content.orElse (.str ""))) := by
  simp only [Turn.ofMessage, h, if_true]
  rfl

/-- An assistant's message without calls becomes its text. -/
theorem ofMessage_plain {m : Message} (h : m.hasRole "assistant" = true)
    (hcalls : m.toolCalls = []) :
    Turn.ofMessage m = .ok (.assistant (m.content.orElse (.str ""))) := by
  have huser : m.hasRole "user" = false := Message.not_hasRole h (by decide)
  simp only [Turn.ofMessage, huser, h, Message.turn_of_no_calls hcalls, Bool.false_eq_true,
    if_true, if_false]
  rfl

/-- With calls it becomes the calls beside its text, which may be null. -/
theorem ofMessage_calls {m : Message} (h : m.hasRole "assistant" = true)
    (hsome : m.toolCalls ≠ []) :
    Turn.ofMessage m = (do
      return .calls (m.content.orElse .null) (← m.toolCalls.mapM Call.ofValue)) := by
  have huser : m.hasRole "user" = false := Message.not_hasRole h (by decide)
  simp only [Turn.ofMessage, huser, h, Message.turn_of_calls hsome, Bool.false_eq_true, if_true,
    if_false]

theorem ofMessage_calling {m : Message} {calls : List TextCall} (h : m.hasRole "assistant" = true)
    (hcalls : m.toolCalls = calls.map TextCall.toValue) (hsome : calls ≠ []) :
    Turn.ofMessage m = .ok (.calls (m.content.orElse .null) (calls.map Call.ofText)) := by
  rw [ofMessage_calls h (by simpa [hcalls] using hsome), hcalls,
    Outcome.bind_of_ok (mapM_call_ofValue calls)]
  rfl

/-- A result becomes an entry that names the call. -/
theorem ofMessage_result {m : Message} (h : m.hasRole "tool" = true) :
    Turn.ofMessage m =
      (do return .result (← m.requireAnsweredId) (m.content.orElse (.str ""))) := by
  have huser : m.hasRole "user" = false := Message.not_hasRole h (by decide)
  have hassistant : m.hasRole "assistant" = false := Message.not_hasRole h (by decide)
  simp only [Turn.ofMessage, huser, hassistant, Bool.false_eq_true, if_false]

/-! ## Where they stand -/

/-- The entry of a message stands behind the entries of the messages before it. -/
theorem turns_split {before later : List Message} {m : Message} {system : Value}
    {entries : List Turn} (h : turns (before ++ m :: later) system = .ok entries) :
    ∃ earlier turn rest, turns before system = .ok earlier ∧ Turn.ofMessage m = .ok turn ∧
      entries = earlier ++ turn :: rest := by
  obtain ⟨told, htold, h⟩ := Outcome.of_bind_eq_ok h
  rw [List.mapM_append] at htold
  obtain ⟨earlier, hearlier, htold⟩ := Outcome.of_bind_eq_ok htold
  obtain ⟨further, hfurther, htold⟩ := Outcome.of_bind_eq_ok htold
  rw [List.mapM_cons] at hfurther
  obtain ⟨turn, hturn, hfurther⟩ := Outcome.of_bind_eq_ok hfurther
  obtain ⟨rest, -, hfurther⟩ := Outcome.of_bind_eq_ok hfurther
  cases hfurther
  cases htold
  cases h
  -- the instruction stands in front of either list, or of none
  refine ⟨_, turn, rest, by rw [turns, Outcome.bind_of_ok hearlier]; rfl, hturn, ?_⟩
  split <;> simp

/-- The calls of a message have an entry behind the entries of the messages before it. -/
theorem turns_split_calls {before later : List Message} {m : Message} {system : Value}
    {entries : List Turn} (hrole : m.hasRole "assistant" = true) (hsome : m.toolCalls ≠ [])
    (h : turns (before ++ m :: later) system = .ok entries) :
    ∃ earlier made rest, turns before system = .ok earlier ∧
      m.toolCalls.mapM Call.ofValue = .ok made ∧
      entries = earlier ++ .calls (m.content.orElse .null) made :: rest := by
  obtain ⟨earlier, turn, rest, hearlier, hturn, rfl⟩ := turns_split h
  rw [ofMessage_calls hrole hsome] at hturn
  obtain ⟨made, hmade, hturn⟩ := Outcome.of_bind_eq_ok hturn
  cases hturn
  exact ⟨earlier, made, rest, hearlier, hmade, rfl⟩

end Parley.OpenAI
