import Parley.Proofs.Reply.Reading
import Parley.Proofs.Stream.Fragments

/-!
# Agreement of the two ways of reading a reply

A reply arrives at once or as a stream. What the two messages made of it have in common is the same
for every vendor; that they have it is shown for each vendor in a file of its own.

* `Agree`: two messages are alike in everything that a caller reads off a reply;
* `Accumulator.result_of_texts`: the message of an accumulator that has gathered what a reply says.
-/

namespace Parley

/-- Two calls with the same id and name, whose arguments decode to the same object. -/
structure SameCall (call other : TextCall) : Prop where
  id : call.id = other.id
  name : call.name = other.name
  arguments : ∃ fields, call.toCall.argumentFields = .ok fields ∧
    other.toCall.argumentFields = .ok fields

/-- Calls that answer the same requests are the same, if the vendor gave the ids. -/
theorem forall₂_sameCall {asked : List AskedCall} {calls others : List TextCall}
    (hids : ∀ c ∈ asked, c.id.isSome = true) (hcalls : List.Forall₂ Answers asked calls)
    (hothers : List.Forall₂ Answers asked others) : List.Forall₂ SameCall calls others := by
  induction hcalls generalizing others with
  | nil =>
    cases hothers
    exact .nil
  | @cons request call rest calls hcall _ ih =>
    cases hothers with
    | @cons _ other _ others hother hrest =>
      refine .cons ⟨?_, ?_, ?_⟩ (ih (fun c hc => hids c (by simp [hc])) hrest)
      -- without an id from the vendor the two would get ids of their own
      · obtain ⟨id, hid⟩ := Option.isSome_iff_exists.1 (hids request (by simp))
        rw [hcall.id id hid, hother.id id hid]
      · rw [hcall.name, hother.name]
      · exact ⟨request.fields, TextCall.argumentFields_eq_ok_iff.2 hcall.arguments,
          TextCall.argumentFields_eq_ok_iff.2 hother.arguments⟩

/-- Two messages with the same role, content, usage, model and finish reason, whose calls, in
order, are related. -/
structure Agree (alike : TextCall → TextCall → Prop) (m other : Message) : Prop where
  role : m.role = other.role
  content : m.content = other.content
  calls : ∃ calls others, m.toolCalls = calls.map TextCall.toValue ∧
    other.toolCalls = others.map TextCall.toValue ∧ List.Forall₂ alike calls others
  usage : m.usage = other.usage
  model : m.metadata.get "model" = other.metadata.get "model"
  finishReason : m.metadata.get "finish_reason" = other.metadata.get "finish_reason"

namespace Stream

/-- The message of an accumulator whose texts and calls are what a reply says. -/
theorem Accumulator.result_of_texts {a : Accumulator} {speech : Speech} {texts : List String}
    {calls : List TextCall} (htexts : a.texts = texts.map .str)
    (hjoin : String.join texts = speech.text)
    (hcalls : a.calls.mapM (fun c => c.2.finish) = .ok (calls.map TextCall.toCall))
    (hanswers : List.Forall₂ Answers speech.calls calls) :
    ∃ m, a.result = .ok m ∧ Repeats m speech calls ∧ m.usage = a.usage ∧
      m.metadata = .dict (a.named ++ [("is_complete", .bool a.isComplete)]) := by
  have htext : a.text = .ok speech.text := by
    rw [Accumulator.text, htexts, Value.joinTexts_map_str, hjoin]
  -- the content is null exactly when there are calls and no text, on either side
  have hnone : a.calls.isEmpty = speech.calls.isEmpty := by
    have hfinished := isEmpty_of_forall₂ (Outcome.mapM_eq_ok_iff.1 hcalls)
    rw [hfinished, List.isEmpty_map, isEmpty_of_forall₂ hanswers]
  have hresult : a.result = .ok
      { role := .str "assistant"
        content := if speech.text = "" && !a.calls.isEmpty then .null else .str speech.text
        toolCalls := (calls.map TextCall.toCall).map ToolCall.toValue
        usage := a.usage
        metadata := .dict (a.named ++ [("is_complete", .bool a.isComplete)]) } := by
    rw [Accumulator.result, Outcome.bind_of_ok htext, Outcome.bind_of_ok hcalls]
    rfl
  refine ⟨_, hresult, ⟨rfl, ?_, ?_, hanswers⟩, rfl, rfl⟩
  · simp only [Speech.content, hnone]
  · rw [List.map_map]
    rfl

end Stream

end Parley
