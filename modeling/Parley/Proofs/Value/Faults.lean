import Parley.Json.Writer
import Parley.Message.Usage
import Parley.Proofs.Outcome
import Parley.Proofs.Value.Reading

/-!
# What can go wrong in taking values apart

Values are taken apart without being examined first, so an operation on them may fail in several
ways. This file says which faults each operation can end in. All are of the kind that a reader of
vendor data reports or skips, but for one: the sum of an integer and a floating-point number fails
with a fault of its own if the integer is beyond their range.

* `Outcome.FailsWith`: the faults that an outcome can be; `Skips`: only those that are skipped;
* `Value.Exceeds`: two counts that have no sum; `Value.add_eq_range_iff`;
* `TokenUsage.report_eq_range_iff`: when a report of counts cannot be made.
-/

namespace Parley

/-- A fault for which an event is skipped: one of the reply, or a part of the wrong kind. A number
that is too large is none. -/
inductive Fault.IsSkipped : Fault → Prop where
  | reply (fault : ReplyFault) : IsSkipped (.invalidReply fault)
  | misuse {how : Misuse} (kind : how ≠ .range) : IsSkipped (.misuse how)

namespace Outcome

variable {α β : Type} {P : Fault → Prop}

/-- If the outcome is a fault, the fault has a property. -/
def FailsWith (P : Fault → Prop) (x : Outcome α) : Prop :=
  ∀ fault, x = .error fault → P fault

/-- If the outcome is a fault, it is one for which an event is skipped. -/
abbrev Skips (x : Outcome α) : Prop :=
  FailsWith Fault.IsSkipped x

theorem failsWith_ok (a : α) : FailsWith P (.ok a : Outcome α) := by
  rintro fault ⟨⟩

/-- A fault that is allowed may happen. -/
theorem failsWith_error {fault : Fault} (h : P fault) :
    FailsWith P (.error fault : Outcome α) := by
  rintro other ⟨⟩
  exact h

/-- Of all kinds of misuse only the one of range is not skipped. -/
theorem skips_misuse {how : Misuse} (h : how ≠ .range) : Skips (misuse how : Outcome α) :=
  failsWith_error (.misuse h)

theorem skips_reply (fault : ReplyFault) : Skips (.error (.invalidReply fault) : Outcome α) :=
  failsWith_error (.reply fault)

/-- What fails with some faults fails with any others that include them. -/
theorem FailsWith.imp {Q : Fault → Prop} {x : Outcome α} (h : FailsWith P x)
    (himp : ∀ fault, P fault → Q fault) : FailsWith Q x :=
  fun fault hx => himp fault (h fault hx)

/-- Two steps fail as either of them may. -/
theorem FailsWith.bind {x : Outcome α} {f : α → Outcome β} (hx : FailsWith P x)
    (hf : ∀ a, x = .ok a → FailsWith P (f a)) : FailsWith P (x >>= f) := by
  cases x with
  | error fault =>
    rintro other ⟨⟩
    exact hx fault rfl
  | ok a => exact hf a rfl

/-- Two steps fail only so exactly if the first does, and the second does after it. -/
theorem failsWith_bind_iff {x : Outcome α} {f : α → Outcome β} :
    FailsWith P (x >>= f) ↔ FailsWith P x ∧ ∀ a, x = .ok a → FailsWith P (f a) := by
  constructor
  · intro h
    cases x with
    | error fault =>
      refine ⟨failsWith_error (h fault rfl), ?_⟩
      rintro a ⟨⟩
    | ok a =>
      refine ⟨failsWith_ok a, ?_⟩
      rintro b ⟨⟩
      exact h
  · rintro ⟨hx, hf⟩
    exact hx.bind hf

/-- A step that cannot fail adds no faults. -/
theorem failsWith_return_iff {x : Outcome α} {f : α → β} :
    FailsWith P (x >>= fun a => pure (f a)) ↔ FailsWith P x := by
  rw [failsWith_bind_iff]
  exact and_iff_left fun a _ => failsWith_ok (f a)

theorem failsWith_mapM {f : α → Outcome β} (hf : ∀ a, FailsWith P (f a)) (xs : List α) :
    FailsWith P (xs.mapM f) := by
  induction xs with
  | nil => exact failsWith_ok []
  | cons x rest ih =>
    rw [List.mapM_cons]
    exact (hf x).bind fun y _ => ih.bind fun ys _ => failsWith_ok _

end Outcome

namespace Json

mutual

/-- Nothing that stands in the way of writing is a matter of range. -/
theorem obstacle?_ne_range : ∀ v : Value, obstacle? v ≠ some .range
  | .list items => by simpa only [obstacle?] using obstacleItems?_ne_range items
  | .dict fields => by simpa only [obstacle?] using obstacleFields?_ne_range fields
  | .int n => by
    rw [obstacle?]
    split <;> simp
  | .null | .bool _ | .str _ | .float _ | .object _ _ => by simp [obstacle?]

theorem obstacleItems?_ne_range : ∀ items : List Value, obstacleItems? items ≠ some .range
  | [] => by simp [obstacleItems?]
  | v :: rest => by
    simp [obstacleItems?, Option.or_eq_some_iff, obstacle?_ne_range v, obstacleItems?_ne_range rest]

theorem obstacleFields?_ne_range : ∀ fields : Fields, obstacleFields? fields ≠ some .range
  | [] => by simp [obstacleFields?]
  | (_, v) :: rest => by
    simp [obstacleFields?, Option.or_eq_some_iff, obstacle?_ne_range v,
      obstacleFields?_ne_range rest]

end

/-- What cannot be written is skipped. -/
theorem skips_write (v : Value) : Outcome.Skips (write v) := by
  unfold write
  split
  · exact Outcome.failsWith_ok _
  · rename_i how hobstacle
    refine Outcome.skips_misuse fun hrange => obstacle?_ne_range v ?_
    rw [hobstacle, hrange]

end Json

namespace Value

open Outcome

/-! ## Taking a value apart -/

theorem skips_items (v : Value) : Skips v.items := by
  cases v <;> first | exact failsWith_ok _ | exact skips_misuse (by decide)

/-- An item that is not there is skipped. -/
theorem skips_item (v : Value) (position : Nat) : Skips (v.item position) := by
  cases v with
  | dict fields => exact skips_misuse (by decide)
  | _ =>
    refine (skips_items _).bind fun items _ => ?_
    cases items[position]? with
    | none => exact skips_misuse (by decide)
    | some w => exact failsWith_ok w

/-- Pieces that are no texts are skipped. -/
theorem skips_joinTexts (vs : List Value) : Skips (joinTexts vs) := by
  unfold joinTexts
  split
  · exact failsWith_ok _
  · exact skips_misuse (by decide)

/-- What cannot be spelled is skipped. -/
theorem skips_spelled (v : Value) : Skips v.spelled := by
  unfold spelled
  split
  · exact failsWith_ok _
  · exact skips_misuse (by decide)

theorem skips_pairOf (v : Value) : Skips v.pairOf := by
  refine (skips_items v).bind fun items _ => ?_
  split
  · split
    · exact failsWith_ok _
    · exact skips_misuse (by decide)
  · exact skips_misuse (by decide)

theorem skips_keyText (v : Value) : Skips v.keyText := by
  cases v <;> first | exact failsWith_ok _ | exact skips_misuse (by decide)

/-- What is no dictionary and cannot be made one is skipped. -/
theorem skips_toFields (v : Value) : Skips v.toFields := by
  have hpairs : Skips (do
      let pairs ← (← v.items).mapM pairOf
      let entries := pairs.foldl (fun es p => putEntry es p.1 p.2) []
      entries.mapM fun e => return (← keyText e.1, e.2)) := by
    refine (skips_items v).bind fun items _ => ?_
    refine (failsWith_mapM skips_pairOf items).bind fun pairs _ => ?_
    exact failsWith_mapM
      (fun (e : Value × Value) => (skips_keyText e.1).bind fun text _ => failsWith_ok _) _
  cases v with
  | dict fields => exact failsWith_ok fields
  | _ => exact hpairs

/-! ## Sums -/

/-- An integer that is beyond the range of floating-point numbers. -/
def Huge (v : Value) : Prop :=
  ∃ n, v.int? = some n ∧ (Double.ofInt n).isFinite = false

/-- Two counts without a sum: one is a floating-point number, and the other an integer that is
beyond their range. -/
def Exceeds (a b : Value) : Prop :=
  (a.Huge ∧ b.isFloat = true) ∨ (a.isFloat = true ∧ b.Huge)

/-- A floating-point number is not huge. -/
theorem not_huge_of_isFloat {v : Value} (h : v.isFloat = true) : ¬v.Huge := by
  rintro ⟨n, hn, -⟩
  cases v with
  | float x => cases hn
  | _ => cases h

theorem not_isNull_of_huge {v : Value} (h : v.Huge) : v.isNull = false := by
  obtain ⟨n, hn, -⟩ := h
  cases v with
  | null => cases hn
  | _ => rfl

theorem not_isNull_of_isFloat {v : Value} (h : v.isFloat = true) : v.isNull = false := by
  cases v with
  | float x => rfl
  | _ => cases h

/-- Two numbers of which one exceeds the other are known. -/
theorem Exceeds.known {a b : Value} (h : a.Exceeds b) : a.isNull = false ∧ b.isNull = false := by
  rcases h with ⟨ha, hb⟩ | ⟨ha, hb⟩
  · exact ⟨not_isNull_of_huge ha, not_isNull_of_isFloat hb⟩
  · exact ⟨not_isNull_of_isFloat ha, not_isNull_of_huge hb⟩

/-- A number is out of range exactly if it is huge. -/
theorem toDouble_eq_range_iff {v : Value} : v.toDouble = misuse .range ↔ v.Huge := by
  cases v <;> simp [toDouble, Huge, int?, misuse]

/-- A sum with a floating-point number is out of range exactly if the other number is huge. -/
theorem float_add_eq_range_iff {x : Double} {b : Value} :
    (Value.float x).add b = misuse .range ↔ b.Huge := by
  have hadd : (Value.float x).add b =
      if b.isFloat || b.int?.isSome then do return .float (x.add (← b.toDouble))
      else misuse .kind := by
    cases b <;> simp [add, int?, isFloat, toDouble, bind, Except.bind]
  rw [hadd]
  split
  · rw [misuse, Outcome.bind_eq_error_iff, ← misuse, toDouble_eq_range_iff]
    simp [pure, Except.pure]
  · rename_i hkind
    have hnot : ¬b.Huge := by
      rintro ⟨n, hn, -⟩
      simp [hn] at hkind
    simp [hnot, misuse]

theorem add_float_eq_range_iff {a : Value} {y : Double} :
    a.add (.float y) = misuse .range ↔ a.Huge := by
  have hadd : a.add (.float y) =
      if a.isFloat || a.int?.isSome then do return .float ((← a.toDouble).add y)
      else misuse .kind := by
    cases a <;> rfl
  rw [hadd]
  split
  · rw [misuse, Outcome.bind_eq_error_iff, ← misuse, toDouble_eq_range_iff]
    simp [pure, Except.pure]
  · rename_i hkind
    have hnot : ¬a.Huge := by
      rintro ⟨n, hn, -⟩
      simp [hn] at hkind
    simp [hnot, misuse]

/-- Two values have a sum, or are no counts, unless they exceed what can be added. -/
theorem add_eq_range_iff {a b : Value} : a.add b = misuse .range ↔ a.Exceeds b := by
  cases ha : a.isFloat with
  | true =>
    cases a with
    | float x => simp [float_add_eq_range_iff, Exceeds, ha, not_huge_of_isFloat ha]
    | _ => cases ha
  | false =>
    cases hb : b.isFloat with
    | true =>
      cases b with
      | float y => simp [add_float_eq_range_iff, Exceeds, hb, not_huge_of_isFloat hb]
      | _ => cases hb
    | false =>
      have hnot : a.add b ≠ misuse .range := by
        cases a <;> cases b <;> simp_all [add, int?, isFloat, misuse]
      simp [hnot, Exceeds, ha, hb]

/-- All that can go wrong with a conversion is misuse. -/
theorem isMisuse_toDouble (v : Value) :
    FailsWith (fun fault => ∃ how, fault = .misuse how) v.toDouble := by
  unfold toDouble
  split
  · exact failsWith_ok _
  · split
    · exact failsWith_error ⟨_, rfl⟩
    · dsimp only
      split
      · exact failsWith_ok _
      · exact failsWith_error ⟨_, rfl⟩

theorem isMisuse_add (a b : Value) :
    FailsWith (fun fault => ∃ how, fault = .misuse how) (a.add b) := by
  unfold add
  split
  · exact failsWith_ok _
  · exact failsWith_ok _
  · split
    · exact failsWith_ok _
    · split
      · exact (isMisuse_toDouble a).bind fun _ _ => (isMisuse_toDouble b).bind fun _ _ =>
          failsWith_ok _
      · exact failsWith_error ⟨_, rfl⟩

end Value

/-! ## Reports of counts -/

namespace TokenUsage

/-- Counts of which no report can be made: the total is left out, and the others have no sum. -/
def Overflows (prompt completion total : Value) : Prop :=
  total = .null ∧ prompt.Exceeds completion

/-- Usage is out of range exactly if its counts overflow. -/
theorem ofCounts_eq_range_iff {prompt completion total : Value} :
    ofCounts prompt completion total = misuse .range ↔ Overflows prompt completion total := by
  unfold ofCounts
  split
  · rename_i hderived
    simp only [Bool.and_eq_true] at hderived
    rw [misuse, Outcome.bind_eq_error_iff, ← misuse, Value.add_eq_range_iff, Overflows]
    simp [pure, Except.pure, Value.isNull_iff.1 hderived.1.1]
  · rename_i hgiven
    have hnot : ¬Overflows prompt completion total := by
      rintro ⟨rfl, hexceeds⟩
      obtain ⟨hprompt, hcompletion⟩ := hexceeds.known
      simp [hprompt, hcompletion] at hgiven
    simp [hnot, misuse]

/-- Whether a report of counts can be made. -/
theorem report_eq_range_iff {prompt completion total : Value} :
    report prompt completion total = misuse .range ↔ Overflows prompt completion total := by
  unfold report
  split
  · rename_i hnone
    simp only [Bool.and_eq_true] at hnone
    have hnot : ¬Overflows prompt completion total := by
      rintro ⟨-, hexceeds⟩
      obtain ⟨hprompt, -⟩ := hexceeds.known
      simp [hprompt] at hnone
    simp [hnot, misuse]
  · rw [misuse, Outcome.bind_eq_error_iff, ← misuse, ofCounts_eq_range_iff]
    simp [pure, Except.pure]

/-- A report fails if its counts overflow, or as all misshaped data does. -/
theorem failsWith_report (prompt completion total : Value) :
    Outcome.FailsWith
      (fun fault => fault.IsSkipped ∨ fault = .misuse .range ∧ Overflows prompt completion total)
      (report prompt completion total) := by
  intro fault hfault
  by_cases hrange : fault = .misuse .range
  · subst hrange
    exact .inr ⟨rfl, report_eq_range_iff.1 hfault⟩
  · -- no other fault than a misuse comes of counts
    have hmisuse : ∃ how, fault = .misuse how := by
      unfold report at hfault
      split at hfault
      · cases hfault
      · rcases Outcome.bind_eq_error_iff.1 hfault with hcounts | ⟨usage, -, ⟨⟩⟩
        unfold ofCounts at hcounts
        split at hcounts
        · rcases Outcome.bind_eq_error_iff.1 hcounts with hsum | ⟨sum, -, ⟨⟩⟩
          exact Value.isMisuse_add prompt completion fault hsum
        · cases hcounts
    obtain ⟨how, rfl⟩ := hmisuse
    exact .inl (.misuse fun h => hrange (by rw [h]))

end TokenUsage

end Parley
