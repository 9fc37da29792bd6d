import Parley.Proofs.Reply.Anthropic
import Parley.Proofs.Reply.Google
import Parley.Proofs.Reply.OpenAI
import Parley.Vendor.Reading

/-!
# Replies are read as what they say

The readers of all vendors under one statement: a well-formed reply is read, and the message says
the text of the reply and makes the calls that it asks for, in order.
-/

namespace Parley

def Vendor.Says (vendor : Vendor) (response : Value) (speech : Speech) : Prop :=
  match vendor with
  | .openAI _ => OpenAI.Says response speech
  | .anthropic => Anthropic.Says response speech
  | .google _ => Google.Says response speech

/-- A message that repeats what a reply says, with calls of texts. -/
structure Repeats (m : Message) (speech : Speech) (calls : List TextCall) : Prop where
  role : m.role = .str "assistant"
  content : m.content = speech.content
  toolCalls : m.toolCalls = calls.map TextCall.toValue
  answers : List.Forall₂ Answers speech.calls calls

/-- A message that is made of a speech repeats it. -/
theorem repeats_message {speech : Speech} {calls : List TextCall} (usage : Option TokenUsage)
    (model finishReason : Value) (h : List.Forall₂ Answers speech.calls calls) :
    Repeats (Reply.message speech.text (calls.map TextCall.toCall) usage model finishReason)
      speech calls where
  role := rfl
  content := Reply.content_message usage model finishReason h
  toolCalls := by
    rw [Reply.message, List.map_map]
    rfl
  answers := h

/-- A reply of any vendor is read as a message that repeats it. -/
theorem Vendor.readReply_of_says {vendor : Vendor} {response : Value} {speech : Speech}
    (h : vendor.Says response speech) :
    ∃ reply calls, vendor.readReply response = .ok reply ∧ Repeats reply speech calls := by
  cases vendor with
  | openAI label =>
    obtain ⟨calls, usage, model, finishReason, hanswers, hread⟩ :=
      OpenAI.replyOf_of_says (.openAI label) h
    exact ⟨_, calls, by rw [readReply, hread, Reply.checked_ok], repeats_message _ _ _ hanswers⟩
  | anthropic =>
    obtain ⟨calls, usage, hanswers, -, hread⟩ := Anthropic.replyOf_of_says h
    exact ⟨_, calls, by rw [readReply, hread, Reply.checked_ok], repeats_message _ _ _ hanswers⟩
  | google tag =>
    obtain ⟨calls, usage, model, finishReason, hanswers, hread⟩ := Google.replyOf_of_says tag h
    exact ⟨_, calls, by rw [readReply, hread, Reply.checked_ok], repeats_message _ _ _ hanswers⟩

end Parley
