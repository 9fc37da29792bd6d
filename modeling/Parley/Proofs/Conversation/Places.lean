import Mathlib.Data.List.Pairwise
import Mathlib.Data.List.TakeWhile
import Mathlib.Data.List.Zip
import Parley.Google.Turn

/-!
# Messages that stand at several places

One message may stand at several places of a conversation. A payload depends on that in one respect:
the function that a nameless result answers is looked up before the first place of the result.

* `Message.IsNameless`: a result whose function has to be looked up;
* `Conversation.Coherent`: a message is the same at all of its places;
* `Conversation.Unshared`: every such result stands at one place;
* `Conversation.SamePlaces`: two conversations hold one such result where the other does;
* `Google.beforeFirst_of_samePlaces`: what is in front of the first place of a message.
-/

namespace Parley

/-- A message that stands at one place is not found at another. -/
theorem Message.isAt_of_unmarked {m n : Message} (h : m.mark = none) : m.isAt n = false := by
  simp [isAt, h]

theorem Message.isAt_unmarked {m n : Message} (h : n.mark = none) : m.isAt n = false := by
  cases hm : m.mark <;> simp [isAt, hm, h]

/-- A result that does not name the function it answers. -/
def Message.IsNameless (m : Message) : Prop :=
  m.hasRole "tool" = true ∧ ¬m.name.truthy = true

namespace Conversation

def Coherent (ms : List Message) : Prop :=
  ∀ m ∈ ms, ∀ n ∈ ms, m.isAt n = true → m = n

def Unshared (ms : List Message) : Prop :=
  ms.Pairwise fun earlier later => later.IsNameless → earlier.isAt later = false

/-- Two conversations hold one nameless result at two places where the other does. -/
def SamePlaces (ms ns : List Message) : Prop :=
  (ms.zip ns).Pairwise fun earlier later =>
    later.1.IsNameless → later.2.IsNameless → earlier.1.isAt later.1 = earlier.2.isAt later.2

/-- Where no message stands at several places, those that do are the same. -/
theorem coherent_of_unmarked {ms : List Message} (h : ∀ m ∈ ms, m.mark = none) : Coherent ms := by
  intro m hm n _ hplace
  rw [Message.isAt_of_unmarked (h m hm)] at hplace
  cases hplace

theorem Unshared.turns {ms : List Message} (h : Unshared ms) : Unshared (turns ms) :=
  List.Pairwise.filter _ h

/-- That the same messages are the same ones is symmetric. -/
theorem SamePlaces.symm {ms ns : List Message} (h : SamePlaces ms ns) : SamePlaces ns ms := by
  rw [SamePlaces, ← List.zip_swap, List.pairwise_map]
  exact h.imp fun hsame hfirst hsecond => (hsame hsecond hfirst).symm

end Conversation

namespace Google

open Conversation

variable {before seen : List Message} {m n : Message}

theorem mem_of_mem_beforeFirst (h : n ∈ beforeFirst before m) : n ∈ before :=
  (List.takeWhile_prefix _).subset h

/-- If the message is at no place before, all that stands before counts. -/
theorem beforeFirst_eq_self (h : ∀ earlier ∈ before, earlier.isAt m = false) :
    beforeFirst before m = before :=
  List.takeWhile_eq_self_iff.2 fun earlier hearlier => by simp [h earlier hearlier]

/-- In front of the first places of two messages stands the same, as far as it is the same in front
of both. -/
theorem beforeFirst_of_samePlaces {zs : List (Message × Message)}
    (h : ∀ z ∈ zs, z.1.isAt m = z.2.isAt n) :
    ∃ front, front <+: zs ∧ beforeFirst (zs.map Prod.fst) m = front.map Prod.fst ∧
      beforeFirst (zs.map Prod.snd) n = front.map Prod.snd := by
  induction zs with
  | nil => exact ⟨[], List.prefix_rfl, rfl, rfl⟩
  | cons z rest ih =>
    rcases List.forall_mem_cons.1 h with ⟨hz, hrest⟩
    rcases ih hrest with ⟨front, hfront, hm, hn⟩
    cases hplace : z.2.isAt n with
    | true => exact ⟨[], List.nil_prefix, by simp [beforeFirst, hz, hplace],
        by simp [beforeFirst, hplace]⟩
    | false =>
      unfold beforeFirst at hm hn ⊢
      exact ⟨z :: front, List.cons_prefix_cons.2 ⟨rfl, hfront⟩, by simp [hz, hplace, hm],
        by simp [hplace, hn]⟩

end Google

end Parley
