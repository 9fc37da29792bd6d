import Parley.Proofs.Message.Arguments
import Parley.Proofs.Stream.Feeding

/-!
# Feeding call fragments

A fragment with a block index joins the call of its index or starts one. The calls of an accumulator
that are made of texts are `pending` calls; a fragment with a new index goes to the end of them, and
one with the index of the last call extends it.
-/

namespace Parley.Stream

/-- A call of texts that is arriving under a block index. -/
def pending (index : Nat) (id name : String) (fragments : List String) : CallKey × PendingCall :=
  (.block (.int index), ⟨.str id, .str name, fragments.map .str⟩)

/-- The text of a piece as something to keep: nothing if it is empty. -/
def keep (piece : String) : List String :=
  if piece = "" then [] else [piece]

/-- Empty pieces can be left out of a text. -/
theorem join_flatMap_keep (pieces : List String) :
    String.join (pieces.flatMap keep) = String.join pieces := by
  induction pieces with
  | nil => rfl
  | cons piece rest ih =>
    by_cases h : piece = "" <;>
      simp [keep, h, String.join_cons, ih]

/-- Two integers are the same index if they are equal. -/
theorem same_int (m n : Int) : (Value.int m).same (.int n) = (m == n) := by
  simp [Value.same, Value.sameScalar, Value.int?]

/-- A fragment with the index of a call that is not there starts a call at the end. -/
theorem mergeFragment_of_new {key : CallKey} {calls : List (CallKey × PendingCall)}
    (fragment : ToolCall) (h : ∀ c ∈ calls, c.1.same key = false) :
    mergeFragment key fragment calls = calls ++ [(key, .start fragment)] := by
  induction calls with
  | nil => rfl
  | cons c rest ih =>
    obtain ⟨k, call⟩ := c
    have hk : k.same key = false := h (k, call) (by simp)
    simp only [mergeFragment, hk, Bool.false_eq_true, if_false, List.cons_append]
    rw [ih fun x hx => h x (by simp [hx])]

/-- A fragment with the index of the last call extends it. -/
theorem mergeFragment_of_last {key : CallKey} {before : List (CallKey × PendingCall)}
    {call : PendingCall} (fragment : ToolCall) (hkey : key.same key = true)
    (h : ∀ c ∈ before, c.1.same key = false) :
    mergeFragment key fragment (before ++ [(key, call)]) =
      before ++ [(key, call.extend fragment)] := by
  induction before with
  | nil => simp [mergeFragment, hkey]
  | cons c rest ih =>
    obtain ⟨k, other⟩ := c
    have hk : k.same key = false := h (k, other) (by simp)
    simp only [List.cons_append, mergeFragment, hk, Bool.false_eq_true, if_false]
    rw [ih fun x hx => h x (by simp [hx])]

/-- A piece of arguments is added to a call that has its id and its name. -/
theorem extend_pending (id name piece : String) (fragments : List String) :
    (PendingCall.mk (.str id) (.str name) (fragments.map .str)).extend
        ⟨.str "", .str "", .str piece⟩ =
      ⟨.str id, .str name, (fragments ++ keep piece).map .str⟩ := by
  by_cases h : piece = "" <;>
    simp [PendingCall.extend, PendingCall.pieces, keep, h, Value.truthy]

/-- A fragment alone in its chunk is taken in under the index that the chunk brings. -/
theorem takeFragments_indexed (index : Nat) (fragment : ToolCall) (a : Accumulator) :
    takeFragments (.list [.int index]) 0 [fragment.toValue] a =
      ({ a with calls := mergeFragment (.block (.int index)) fragment a.calls }, .ok ()) := by
  have hindex : indexAt (.list [.int index]) 0 = .ok (some (.int index)) := rfl
  simp only [takeFragments, takeFragment, hindex, depending_ok, Step.andThen_skip, addFragment,
    fragmentOf_toValue]

/-- The call that a pending call has become when the stream is over. -/
theorem finish_pending (id name : String) (fragments : List String) :
    (PendingCall.mk (.str id) (.str name) (fragments.map .str)).finish =
      .ok (TextCall.mk id name (if String.join fragments = "" then "{}"
        else String.join fragments)).toCall := by
  have hjoin := Value.joinTexts_map_str fragments
  rw [PendingCall.finish, Outcome.bind_of_ok hjoin]
  by_cases h : String.join fragments = "" <;>
    simp [h, Value.orElse, Value.truthy, TextCall.toCall, pure, Except.pure]

end Parley.Stream
