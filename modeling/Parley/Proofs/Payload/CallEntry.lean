import Parley.Payload
import Parley.Proofs.Turn.Anthropic
import Parley.Proofs.Turn.Google
import Parley.Proofs.Turn.OpenAI

/-!
# The entry of a message with calls

A message with calls has an entry of its own at every vendor, and nothing that comes later changes
it. The entry is made of the vendor's forms of the calls, and it stands behind the entries of the
turns before the message.
-/

namespace Parley

variable {vendor : Vendor} {m : Message}

/-- The entry that a message with calls becomes, made of the forms of its calls. -/
inductive CallEntry (m : Message) : Vendor → Value → Prop where
  | openAI {label : Value} {made : List OpenAI.Call}
      (forms : m.toolCalls.mapM OpenAI.Call.ofValue = .ok made) :
      CallEntry m (.openAI label) (OpenAI.Turn.calls (m.content.orElse .null) made).toValue
  | anthropic {uses : List Anthropic.ToolUse}
      (forms : m.toolCalls.mapM Anthropic.ToolUse.ofValue = .ok uses) :
      CallEntry m .anthropic
        (Anthropic.Turn.toolUses (if m.content.truthy then some m.content else none) uses).toValue
  | google {tag : String} {made : List Google.FunctionCall}
      (forms : m.toolCalls.mapM Google.FunctionCall.ofValue = .ok made) :
      CallEntry m (.google tag)
        (Google.Turn.calls (if m.content.truthy then some m.content else none) made).toValue

/-- The entry of a message with calls stands behind the entries of the turns before it. -/
theorem Payload.exists_callEntry {before later : List Message} {system : Value} {all : List Value}
    (hrole : m.hasRole "assistant" = true) (hsome : m.toolCalls ≠ [])
    (h : entries vendor (before ++ m :: later) system = .ok all) :
    ∃ earlier entry rest, entries vendor before system = .ok earlier ∧
      all = earlier ++ entry :: rest ∧ CallEntry m vendor entry := by
  cases vendor with
  | openAI label =>
    obtain ⟨turns, hturns, h⟩ := Outcome.of_bind_eq_ok h
    cases h
    obtain ⟨earlier, made, rest, hearlier, hmade, rfl⟩ :=
      OpenAI.turns_split_calls hrole hsome hturns
    refine ⟨_, _, _, ?_, by rw [List.map_append, List.map_cons], .openAI hmade⟩
    rw [entries, Outcome.bind_of_ok hearlier]
    rfl
  | anthropic =>
    obtain ⟨turns, hturns, h⟩ := Outcome.of_bind_eq_ok h
    cases h
    obtain ⟨earlier, uses, rest, hearlier, huses, rfl⟩ :=
      Anthropic.turns_split_calls hrole hsome hturns
    refine ⟨_, _, _, ?_, by rw [List.map_append, List.map_cons], .anthropic huses⟩
    rw [entries, Outcome.bind_of_ok hearlier]
    rfl
  | google tag =>
    obtain ⟨turns, hturns, h⟩ := Outcome.of_bind_eq_ok h
    cases h
    obtain ⟨earlier, made, rest, hearlier, hmade, rfl⟩ :=
      Google.turns_split_calls hrole hsome hturns
    refine ⟨_, _, _, ?_, by rw [List.map_append, List.map_cons], .google hmade⟩
    rw [entries, Outcome.bind_of_ok hearlier]
    rfl

end Parley
