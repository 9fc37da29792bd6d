import Parley.Proofs.Message.Arguments
import Parley.Proofs.Value.Reading
import Parley.Reply

/-!
# What a reply says

A complete reply says a text and asks for calls, in whatever form its vendor puts it. The forms are
described by reading fields of the response, so that plain data and the objects of a client library
count alike; that a reader gives what the response says is shown for each vendor in a file of its
own.

* `Speech`: a text and the calls asked for;
* `Answers`: a call of a message is the one that was asked for.
-/

namespace Parley

/-- A call that a reply asks for, with the id that the vendor gave it, if it gave one. -/
structure AskedCall where
  id : Option String
  name : String
  fields : Fields

/-- What a reply, or a piece of one, says. -/
@[ext]
structure Speech where
  text : String
  calls : List AskedCall

namespace Speech

/-- The content of a message that says the same: nothing if there are calls and no text. -/
def content (speech : Speech) : Value :=
  if speech.text = "" && !speech.calls.isEmpty then .null else .str speech.text

def join (pieces : List Speech) : Speech :=
  ⟨String.join (pieces.map Speech.text), pieces.flatMap Speech.calls⟩

@[simp] theorem join_nil : join [] = ⟨"", []⟩ := rfl

@[simp] theorem text_join_cons (piece : Speech) (pieces : List Speech) :
    (join (piece :: pieces)).text = piece.text ++ (join pieces).text := by
  simp [join, String.join_cons]

@[simp] theorem calls_join_cons (piece : Speech) (pieces : List Speech) :
    (join (piece :: pieces)).calls = piece.calls ++ (join pieces).calls := rfl

/-- Calls without texts join to the calls. -/
theorem join_map_call {α : Type} (call : α → AskedCall) (xs : List α) :
    join (xs.map fun x => ⟨"", [call x]⟩) = ⟨"", xs.map call⟩ := by
  induction xs with
  | nil => rfl
  | cons x rest ih => ext1 <;> simp [ih]

end Speech

/-- A call of a message is the one that was asked for: its function, which has a name, its
arguments, and its id unless the vendor gave none. -/
structure Answers (asked : AskedCall) (call : TextCall) : Prop where
  id : ∀ id ∈ asked.id, call.id = id
  name : call.name = asked.name
  named : call.name ≠ ""
  arguments : Spells call.arguments asked.fields

namespace Value

/-- A value that can be a token count: an integer, or nothing. -/
def IsCount (v : Value) : Prop :=
  v = .null ∨ ∃ n : Int, v = .int n

end Value

/-- Token counts are always reported without a fault. -/
theorem TokenUsage.report_of_counts {prompt completion total : Value} (hp : prompt.IsCount)
    (hc : completion.IsCount) : ∃ usage, report prompt completion total = .ok usage := by
  rcases hp with rfl | ⟨p, rfl⟩ <;> rcases hc with rfl | ⟨c, rfl⟩ <;> cases total <;>
    exact ⟨_, rfl⟩

namespace Reply

theorem checked_ok {α : Type} (vendor : Vendor) (x : α) : checked vendor (.ok x) = .ok x := rfl

/-- The content of a reply is the text that was said, and null if none was. -/
theorem content_message {relation : AskedCall → TextCall → Prop} {speech : Speech}
    {calls : List TextCall} (usage : Option TokenUsage) (model finishReason : Value)
    (h : List.Forall₂ relation speech.calls calls) :
    (message speech.text (calls.map TextCall.toCall) usage model finishReason).content =
      speech.content := by
  have hnone : speech.calls.isEmpty = calls.isEmpty := isEmpty_of_forall₂ h
  by_cases htext : speech.text = "" <;>
    simp [message, content, Speech.content, Value.truthy, Value.orElse, htext, hnone]

end Reply

end Parley
