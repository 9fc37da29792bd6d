import Parley.Json.Reader

/-!
# Reading never runs out of depth

The reader of values bounds the depth of its calls. This file shows that the bound is none:

* `LeavesAtMost n r`: what a reading function gives, if anything, leaves at most `n` characters;
* `reader_leaves`: no reading function leaves more text than it was given;
* `readValue_of_depthOf_le`: from `depthOf` on, a larger depth reads the same.

The last holds because a call that goes one level deeper has consumed a character at every second
level at least: a bracket or brace opens, and then its first member is read.
-/

namespace Parley.Json

/-! ## What is left -/

/-- What the reader gives, if anything, leaves at most so many characters. -/
def LeavesAtMost {α : Type} (n : Nat) (r : Except Failure (α × List Char)) : Prop :=
  ∀ x rest, r = .ok (x, rest) → rest.length ≤ n

namespace LeavesAtMost

variable {α β : Type} {m n : Nat}

theorem error (f : Failure) : LeavesAtMost (α := α) n (.error f) := by
  intro x rest h
  cases h

theorem ok {x : α} {rest : List Char} (h : rest.length ≤ n) : LeavesAtMost n (.ok (x, rest)) := by
  intro y r hr
  cases hr
  exact h

theorem mono {r : Except Failure (α × List Char)} (h : LeavesAtMost m r) (hmn : m ≤ n) :
    LeavesAtMost n r :=
  fun x rest hr => Nat.le_trans (h x rest hr) hmn

/-- What is read in two steps leaves at most what the second one leaves. -/
theorem bind {r : Except Failure (α × List Char)}
    {next : α × List Char → Except Failure (β × List Char)} (h : LeavesAtMost m r)
    (hnext : ∀ x rest, rest.length ≤ m → LeavesAtMost n (next (x, rest))) :
    LeavesAtMost n (r >>= next) := by
  cases r with
  | error f => exact error f
  | ok p => exact hnext p.1 p.2 (h p.1 p.2 rfl)

theorem consChar {c : Char} {r : Except Failure (List Char × List Char)}
    (h : LeavesAtMost n r) : LeavesAtMost n (consChar c r) := by
  cases r with
  | error f => exact error f
  | ok p => exact ok (h p.1 p.2 rfl)

end LeavesAtMost

/-- What comes after a reading function can rely on the length of what it leaves. -/
theorem bind_congr_of_leaves {α β : Type} {n : Nat} {r : Except Failure (α × List Char)}
    {f g : α × List Char → Except Failure β} (h : LeavesAtMost n r)
    (hfg : ∀ x rest, rest.length ≤ n → f (x, rest) = g (x, rest)) : (r >>= f) = (r >>= g) := by
  cases r with
  | error e => rfl
  | ok p => exact hfg p.1 p.2 (h p.1 p.2 rfl)

/-! ## Tokens leave no more than they were given -/

theorem length_dropWhile_le (p : Char → Bool) (cs : List Char) :
    (cs.dropWhile p).length ≤ cs.length :=
  (List.dropWhile_sublist p).length_le

/-- Skipping blanks makes no text longer. -/
theorem length_skip_le (cs : List Char) : (skip cs).length ≤ cs.length :=
  length_dropWhile_le isSpace cs

/-- A string leaves at most what it was read from. -/
theorem readString_leaves (start : Nat) (cs : List Char) :
    LeavesAtMost cs.length (readString start cs) := by
  fun_induction readString start cs with
  | case1 => exact .error _
  | case2 r => exact .ok (by simp)
  | case3 => exact .error _
  | case4 => exact .error _
  | case5 _ _ _ _ _ _ _ _ _ _ _ _ _ _ _ _ ih => exact ih.consChar.mono (by simp)
  | case6 _ _ _ _ _ _ _ _ _ _ _ _ _ _ _ _ ih => exact ih.consChar.mono (by simp)
  | case7 _ _ _ _ _ _ _ _ _ _ _ _ _ ih => exact ih.consChar.mono (by simp)
  | case8 => exact .error _
  | case9 _ _ _ _ _ _ _ _ _ ih => exact ih.consChar.mono (by simp)
  | case10 => exact .error _
  | case11 => exact .error _
  | case12 _ _ _ _ _ _ _ ih => exact ih.consChar.mono (by simp only [List.length_cons]; omega)
  | case13 => exact .error _
  | case14 => exact .error _
  | case15 _ _ _ _ _ _ _ _ _ ih => exact ih.consChar.mono (by simp)

theorem length_readWhole_le (cs : List Char) : (readWhole cs).2.length ≤ cs.length := by
  fun_cases readWhole cs with
  | case1 => simp
  | case2 => simp
  | case3 c r => exact length_dropWhile_le Char.isDigit (c :: r)

theorem length_readPlaces_le (cs : List Char) : (readPlaces cs).2.length ≤ cs.length := by
  fun_cases readPlaces cs with
  | case1 d r =>
    have := length_dropWhile_le Char.isDigit (d :: r)
    simp only [List.length_cons] at this ⊢
    omega
  | case2 => simp
  | case3 => simp

theorem length_readSign_le (cs : List Char) : (readSign cs).2.length ≤ cs.length := by
  fun_cases readSign cs <;> simp

/-- An exponent leaves at most what it was read from. -/
theorem length_readExponent_le (cs : List Char) : (readExponent cs).2.length ≤ cs.length := by
  fun_cases readExponent cs with
  | case1 c r h negative body hbody ds hds => simp
  | case2 c r h negative body hbody ds hds e =>
    have hsign : body.length ≤ r.length := by
      have := length_readSign_le r
      rwa [hbody] at this
    have hdrop := length_dropWhile_le Char.isDigit body
    simp only [List.length_cons]
    omega
  | case3 => simp
  | case4 => simp

/-- A number leaves at most what it was read from. -/
theorem length_le_of_readMagnitude {negative : Bool} {cs rest : List Char} {v : Value}
    (h : readMagnitude? negative cs = some (v, rest)) : rest.length ≤ cs.length := by
  rcases hw : readWhole cs with ⟨whole, r₁⟩
  rcases hp : readPlaces r₁ with ⟨places, r₂⟩
  rcases he : readExponent r₂ with ⟨exponent, r₃⟩
  have h₁ := length_readWhole_le cs
  have h₂ := length_readPlaces_le r₁
  have h₃ := length_readExponent_le r₂
  simp only [hw] at h₁
  simp only [hp] at h₂
  simp only [he] at h₃
  have hrest : r₃ = rest := by
    simp only [readMagnitude?, hw, hp, he] at h
    split at h
    · simp at h
    · split at h <;> simp_all
  subst hrest
  omega

theorem length_le_of_readNumber {cs rest : List Char} {v : Value}
    (h : readNumber? cs = some (v, rest)) : rest.length ≤ cs.length := by
  unfold readNumber? at h
  split at h
  · have := length_le_of_readMagnitude h
    simp only [List.length_cons]
    omega
  · exact length_le_of_readMagnitude h

/-- A scalar leaves at most what it was read from. -/
theorem readScalar_leaves (cs : List Char) : LeavesAtMost cs.length (readScalar cs) := by
  fun_cases readScalar cs with
  | case1 word v h => exact .ok (by simp)
  | case2 => exact .error _
  | case3 _ v rest hr => exact .ok (length_le_of_readNumber hr)
  | case4 => exact .error _

/-! ## Values leave no more than they were given -/

/-- No reading function leaves more text than it was given. -/
theorem reader_leaves (depth : Nat) :
    (∀ cs, LeavesAtMost cs.length (readValue depth cs)) ∧
    (∀ cs, LeavesAtMost cs.length (readItems depth cs)) ∧
    (∀ cs, LeavesAtMost cs.length (readMembers depth cs)) := by
  induction depth with
  | zero =>
    refine ⟨fun cs => ?_, fun cs => ?_, fun cs => ?_⟩
    · rw [readValue]; exact .error _
    · rw [readItems]; exact .error _
    · rw [readMembers]; exact .error _
  | succ depth ih =>
    obtain ⟨hvalue, hitems, hmembers⟩ := ih
    refine ⟨fun cs => ?_, fun cs => ?_, fun cs => ?_⟩
    · rw [readValue.eq_def]
      dsimp only
      split
      · refine (readString_leaves _ _).bind fun s r hr => .ok ?_
        simp only [List.length_cons]; omega
      · rename_i r
        have hskip := length_skip_le r
        split
        · rename_i r' h
          rw [h] at hskip
          exact .ok (by simp only [List.length_cons] at hskip ⊢; omega)
        · refine (hitems _).bind fun s r hr => .ok ?_
          simp only [List.length_cons]; omega
      · rename_i r
        have hskip := length_skip_le r
        split
        · rename_i r' h
          rw [h] at hskip
          exact .ok (by simp only [List.length_cons] at hskip ⊢; omega)
        · refine (hmembers _).bind fun s r hr => .ok ?_
          simp only [List.length_cons]; omega
      · exact readScalar_leaves _
    · rw [readItems]
      refine (hvalue cs).bind fun v r hr => ?_
      have hskip := length_skip_le r
      dsimp only
      split
      · rename_i r' h
        rw [h] at hskip
        exact .ok (by simp only [List.length_cons] at hskip ⊢; omega)
      · rename_i r' h
        rw [h] at hskip
        have hskip' := length_skip_le r'
        refine (hitems _).bind fun vs r'' hr'' => .ok ?_
        simp only [List.length_cons] at hskip ⊢; omega
      · exact .error _
    · rw [readMembers.eq_def]
      dsimp only
      split
      · rename_i r
        refine (readString_leaves _ _).bind fun key r₁ h₁ => ?_
        have hskip := length_skip_le r₁
        dsimp only
        split
        · rename_i r₂ h₂
          rw [h₂] at hskip
          have hskip₂ := length_skip_le r₂
          refine (hvalue _).bind fun v r₃ h₃ => ?_
          have hskip₃ := length_skip_le r₃
          dsimp only
          split
          · rename_i r₄ h₄
            rw [h₄] at hskip₃
            exact .ok (by simp only [List.length_cons] at *; omega)
          · rename_i r₄ h₄
            rw [h₄] at hskip₃
            have hskip₄ := length_skip_le r₄
            refine (hmembers _).bind fun vs r₅ h₅ => .ok ?_
            simp only [List.length_cons] at *; omega
          · exact .error _
        · exact .error _
      · exact .error _

/-! ## A larger depth reads the same -/

/-- One level more makes no difference where the depth is enough. The items of a list and the
members of a dictionary need one level more than a value of the same length. -/
theorem reader_deeper (depth : Nat) :
    (∀ cs, depthOf cs ≤ depth → readValue (depth + 1) cs = readValue depth cs) ∧
    (∀ cs, depthOf cs < depth → readItems (depth + 1) cs = readItems depth cs) ∧
    (∀ cs, depthOf cs < depth → readMembers (depth + 1) cs = readMembers depth cs) := by
  induction depth with
  | zero => simp [depthOf]
  | succ depth ih =>
    obtain ⟨hvalue, hitems, hmembers⟩ := ih
    obtain ⟨lvalue, litems, lmembers⟩ := reader_leaves depth
    simp only [depthOf] at *
    refine ⟨fun cs hcs => ?_, fun cs hcs => ?_, fun cs hcs => ?_⟩
    · rw [readValue.eq_def (depth + 1 + 1), readValue.eq_def (depth + 1)]
      dsimp only
      split
      · rfl
      · rename_i r
        have hskip := length_skip_le r
        simp only [List.length_cons] at hcs
        -- The bracket paid for the two levels: the call and the list of items.
        split
        · rfl
        · rw [hitems _ (by omega)]
      · rename_i r
        have hskip := length_skip_le r
        simp only [List.length_cons] at hcs
        split
        · rfl
        · rw [hmembers _ (by omega)]
      · rfl
    · rw [readItems, readItems, hvalue cs (by omega)]
      refine bind_congr_of_leaves (lvalue cs) fun v r hr => ?_
      have hskip := length_skip_le r
      dsimp only
      split
      · rfl
      · rename_i r' h
        rw [h] at hskip
        have hskip' := length_skip_le r'
        simp only [List.length_cons] at hskip
        rw [hitems _ (by omega)]
      · rfl
    · rw [readMembers.eq_def (depth + 1 + 1), readMembers.eq_def (depth + 1)]
      dsimp only
      split
      · rename_i r
        simp only [List.length_cons] at hcs
        refine bind_congr_of_leaves (readString_leaves _ _) fun key r₁ h₁ => ?_
        have hskip₁ := length_skip_le r₁
        dsimp only
        split
        · rename_i r₂ h₂
          rw [h₂] at hskip₁
          have hskip₂ := length_skip_le r₂
          simp only [List.length_cons] at hskip₁
          rw [hvalue _ (by omega)]
          refine bind_congr_of_leaves (lvalue _) fun v r₃ h₃ => ?_
          have hskip₃ := length_skip_le r₃
          dsimp only
          split
          · rfl
          · rename_i r₄ h₄
            rw [h₄] at hskip₃
            have hskip₄ := length_skip_le r₄
            simp only [List.length_cons] at hskip₃
            rw [hmembers _ (by omega)]
          · rfl
        · rfl
      · rfl

/-- From `depthOf` on, the depth makes no difference. -/
theorem readValue_of_depthOf_le {depth : Nat} {cs : List Char} (h : depthOf cs ≤ depth) :
    readValue depth cs = readValue (depthOf cs) cs := by
  induction h with
  | refl => rfl
  | step h ih => rw [(reader_deeper _).1 cs h, ih]

end Parley.Json
