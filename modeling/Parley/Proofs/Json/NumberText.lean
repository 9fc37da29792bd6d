import Mathlib.Algebra.Group.Nat.Defs
import Mathlib.Data.List.TakeWhile
import Parley.Json.Reader
import Parley.Json.Writer

/-!
# Written numbers are read back

A number ends where its characters end, so reading one back depends on what follows it:

* `Closes rest`: a separator, a closing bracket or nothing follows;
* `Closes.readScalar_append`: what closes a scalar does not change how it is read;
* `readScalar_intText`: the text of an integer is read as the integer, up to a limit of digits.
-/

namespace Parley.Json

/-! ## What follows a value -/

/-- What can stand after a value: nothing, or a separator or bracket that ends it. -/
def Closes (rest : List Char) : Prop :=
  ∀ c ∈ rest.head?, c = ',' ∨ c = ']' ∨ c = '}'

namespace Closes

variable {rest : List Char}

/-- Nothing follows at the end of the text. -/
theorem nil : Closes [] := by
  intro c h
  cases h

theorem comma (rest : List Char) : Closes (',' :: rest) := by
  intro c h
  cases h
  exact .inl rfl

theorem bracket (rest : List Char) : Closes (']' :: rest) := by
  intro c h
  cases h
  exact .inr (.inl rfl)

theorem brace (rest : List Char) : Closes ('}' :: rest) := by
  intro c h
  cases h
  exact .inr (.inr rfl)

/-- What closes a value starts with one of three characters. -/
theorem head {c : Char} (h : Closes (c :: rest)) : c = ',' ∨ c = ']' ∨ c = '}' :=
  h c rfl

theorem head_not_digit {c : Char} (h : Closes (c :: rest)) : c.isDigit = false := by
  rcases h.head with rfl | rfl | rfl <;> rfl

theorem takeWhile_digits (h : Closes rest) : rest.takeWhile Char.isDigit = [] := by
  cases rest with
  | nil => rfl
  | cons c rest => simp [h.head_not_digit]

theorem dropWhile_digits (h : Closes rest) : rest.dropWhile Char.isDigit = rest := by
  cases rest with
  | nil => rfl
  | cons c rest => simp [h.head_not_digit]

/-- Digits are taken from the text in front of what closes it. -/
theorem takeWhile_append (h : Closes rest) (cs : List Char) :
    (cs ++ rest).takeWhile Char.isDigit = cs.takeWhile Char.isDigit := by
  rw [List.takeWhile_append, h.takeWhile_digits]
  split
  · rename_i hlen
    rw [List.append_nil]
    exact ((List.takeWhile_prefix _).eq_of_length hlen).symm
  · rfl

theorem dropWhile_append (h : Closes rest) (cs : List Char) :
    (cs ++ rest).dropWhile Char.isDigit = cs.dropWhile Char.isDigit ++ rest := by
  rw [List.dropWhile_append, h.dropWhile_digits]
  split <;> simp_all

/-- A whole number is read from the text in front of what closes it. -/
theorem readWhole_append (h : Closes rest) (cs : List Char) :
    readWhole (cs ++ rest) = ((readWhole cs).1, (readWhole cs).2 ++ rest) := by
  -- what follows cannot be taken for a digit, nor below for a point, a sign or a mark
  cases cs with
  | nil =>
    cases rest with
    | nil => rfl
    | cons c rest =>
      have hc : c ≠ '0' := by rcases h.head with rfl | rfl | rfl <;> decide
      simp [readWhole, hc, h.head_not_digit]
  | cons c cs =>
    by_cases hc : c = '0'
    · simp [readWhole, hc]
    · simp only [List.cons_append, readWhole, hc, if_false]
      rw [← List.cons_append, h.takeWhile_append, h.dropWhile_append]

theorem readPlaces_append (h : Closes rest) (cs : List Char) :
    readPlaces (cs ++ rest) = ((readPlaces cs).1, (readPlaces cs).2 ++ rest) := by
  cases cs with
  | nil =>
    cases rest with
    | nil => rfl
    | cons c rest =>
      have hc : c ≠ '.' := by rcases h.head with rfl | rfl | rfl <;> decide
      simp [readPlaces, hc]
  | cons c cs =>
    by_cases hc : c = '.'
    · subst hc
      cases cs with
      | nil =>
        cases rest with
        | nil => rfl
        | cons c rest => simp [readPlaces, h.head_not_digit]
      | cons d cs =>
        by_cases hd : d.isDigit = true
        · simp only [List.cons_append, readPlaces, hd, if_true]
          rw [← List.cons_append, h.takeWhile_append, h.dropWhile_append]
        · simp [readPlaces, hd]
    · simp [readPlaces, hc]

theorem readSign_append (h : Closes rest) (cs : List Char) :
    readSign (cs ++ rest) = ((readSign cs).1, (readSign cs).2 ++ rest) := by
  cases cs with
  | nil =>
    cases rest with
    | nil => rfl
    | cons c rest => rcases h.head with rfl | rfl | rfl <;> rfl
  | cons c cs =>
    by_cases hm : c = '-'
    · subst hm; rfl
    by_cases hp : c = '+'
    · subst hp; rfl
    · simp [readSign, hm, hp]

theorem readExponent_append (h : Closes rest) (cs : List Char) :
    readExponent (cs ++ rest) = ((readExponent cs).1, (readExponent cs).2 ++ rest) := by
  cases cs with
  | nil =>
    cases rest with
    | nil => rfl
    | cons c rest => rcases h.head with rfl | rfl | rfl <;> rfl
  | cons c cs =>
    by_cases hc : c = 'e' ∨ c = 'E'
    · simp only [List.cons_append, readExponent, hc, if_true, h.readSign_append,
        h.takeWhile_append, h.dropWhile_append]
      split <;> rfl
    · simp [readExponent, hc]

theorem readMagnitude_append {negative : Bool} {cs r : List Char} {v : Value} (h : Closes rest)
    (hr : readMagnitude? negative cs = some (v, r)) :
    readMagnitude? negative (cs ++ rest) = some (v, r ++ rest) := by
  simp only [readMagnitude?, h.readWhole_append, h.readPlaces_append, h.readExponent_append]
    at hr ⊢
  split at hr
  · cases hr
  · rw [if_neg ‹_›]
    split at hr <;> simp_all

/-- A number is read from the text in front of what closes it. -/
theorem readNumber_append {cs r : List Char} {v : Value} (h : Closes rest)
    (hr : readNumber? cs = some (v, r)) : readNumber? (cs ++ rest) = some (v, r ++ rest) := by
  cases cs with
  | nil => simp [readNumber?, readMagnitude?, readWhole] at hr
  | cons c cs =>
    by_cases hc : c = '-'
    · subst hc
      exact h.readMagnitude_append hr
    -- without a minus sign the number is all there is
    · have hn : ∀ cs, readNumber? (c :: cs) = readMagnitude? false (c :: cs) := by
        intro cs
        rw [readNumber?]
        rintro r ⟨⟩
        exact hc rfl
      rw [hn] at hr
      rw [List.cons_append, hn, ← List.cons_append]
      exact h.readMagnitude_append hr

/-- None of the special words runs on into what closes it. -/
theorem isPrefixOf_append {word : List Char} (hw : ',' ∉ word ∧ ']' ∉ word ∧ '}' ∉ word)
    (h : Closes rest) (cs : List Char) :
    word.isPrefixOf (cs ++ rest) = word.isPrefixOf cs := by
  induction word generalizing cs with
  | nil => simp
  | cons w word ih =>
    cases cs with
    | nil =>
      cases rest with
      | nil => rfl
      | cons c rest =>
        -- a word cannot go on into what closes the text
        have hc : w ≠ c := by
          rintro rfl
          rcases h.head with rfl | rfl | rfl <;> simp at hw
        simp [List.isPrefixOf, hc]
    | cons c cs =>
      simp only [List.cons_append, List.isPrefixOf]
      rw [ih (by simp_all)]

/-- A scalar is read alike whether the text ends behind it or something closes it. -/
theorem readScalar_append {cs r : List Char} {v : Value} (h : Closes rest)
    (hr : readScalar cs = .ok (v, r)) : readScalar (cs ++ rest) = .ok (v, r ++ rest) := by
  -- the same word starts the longer text, if any does
  have hfind : words.find? (fun w => w.1.isPrefixOf (cs ++ rest)) =
      words.find? (fun w => w.1.isPrefixOf cs) := by
    simp only [words, List.find?_cons, List.find?_nil]
    repeat rw [h.isPrefixOf_append (by decide)]
  unfold readScalar at hr ⊢
  rw [hfind]
  cases hw : words.find? (fun w => w.1.isPrefixOf cs) with
  | some w =>
    obtain ⟨word, x⟩ := w
    have hword : word <+: cs := by
      have := List.find?_some hw
      exact List.isPrefixOf_iff_prefix.1 this
    obtain ⟨t, rfl⟩ := hword
    simp only [hw] at hr
    cases hr
    simp
  | none =>
    simp only [hw] at hr
    cases hn : readNumber? cs with
    | none => simp [hn] at hr
    | some p =>
      obtain ⟨x, t⟩ := p
      simp only [hn, h.readNumber_append hn] at hr ⊢
      split at hr
      · cases hr
      · cases hr
        rw [if_neg ‹_›]

end Closes

/-! ## Integers -/

/-- The digits of a number do not start with zero, unless it is zero. -/
theorem head_digits_ne_zero {n : Nat} (h : n ≠ 0) :
    ∃ c ds, Number.digits n = c :: ds ∧ c ≠ '0' := by
  unfold Number.digits
  -- the first digit is the last quotient, which is below ten and not zero
  induction n using Nat.base_induction 10 (by decide) with
  | single m hm =>
    refine ⟨m.digitChar, [], Nat.toDigits_of_lt_base hm, ?_⟩
    revert h
    revert m
    decide
  | digit m k hk hm ih =>
    obtain ⟨c, ds, hc, hne⟩ := ih (by omega)
    refine ⟨c, ds ++ Nat.toDigits 10 k, ?_, hne⟩
    rw [← Nat.toDigits_append_toDigits (by decide) hm hk, hc]
    rfl

theorem isDigit_of_mem_digits {n : Nat} {c : Char} (h : c ∈ Number.digits n) : c.isDigit = true :=
  Nat.isDigit_of_mem_toDigits (by decide) (by decide) h

/-- The digits of a number stand for the number. -/
theorem ofDigits_digits (n : Nat) : Number.ofDigits (Number.digits n) = n :=
  Nat.ofDigitChars_ten_toDigits

/-- The digits of a number are read to the last one. -/
theorem readWhole_digits (n : Nat) : readWhole (Number.digits n) = (Number.digits n, []) := by
  -- zero is the one number whose text starts with a zero
  by_cases hn : n = 0
  · subst hn; rfl
  · obtain ⟨c, ds, hds, hc⟩ := head_digits_ne_zero hn
    have hall : ∀ d ∈ c :: ds, d.isDigit = true := fun d hd =>
      isDigit_of_mem_digits (hds ▸ hd)
    rw [hds]
    simp only [readWhole, hc, if_false]
    rw [List.takeWhile_eq_self_iff.2 hall, List.dropWhile_eq_nil_iff.2 hall]

/-- A number written in digits is read as an integer. -/
theorem readMagnitude?_digits (negative : Bool) (n : Nat) :
    readMagnitude? negative (Number.digits n) =
      some (.int (if negative then -n else n), []) := by
  have hne : Number.digits n ≠ [] := Nat.toDigits_ne_nil
  simp [readMagnitude?, readWhole_digits, readPlaces, readExponent, hne, ofDigits_digits]

/-- What is no special word is read as a number, if it is not too long. -/
theorem readScalar_of_readNumber {cs r : List Char} {v : Value}
    (hfind : words.find? (fun w => w.1.isPrefixOf cs) = none)
    (h : readNumber? cs = some (v, r)) :
    readScalar cs = if isTooLong v then .error ⟨.tooManyDigits, cs.length⟩ else .ok (v, r) := by
  simp only [readScalar, hfind, h]

/-- A scalar that starts with a digit is a number without a sign. -/
theorem readScalar_digit {c : Char} {cs r : List Char} {v : Value} (hc : c.isDigit = true)
    (h : readMagnitude? false (c :: cs) = some (v, r)) :
    readScalar (c :: cs) =
      if isTooLong v then .error ⟨.tooManyDigits, (c :: cs).length⟩ else .ok (v, r) := by
  have hne : ∀ w : Char, w.isDigit = false → w ≠ c := by
    rintro w hw rfl
    simp [hw] at hc
  -- none of the words starts with a digit
  have hfind : words.find? (fun w => w.1.isPrefixOf (c :: cs)) = none := by
    simp [words, List.isPrefixOf, hne 'n' rfl, hne 't' rfl, hne 'f' rfl, hne 'N' rfl,
      hne 'I' rfl, hne '-' rfl]
  have hnumber : readNumber? (c :: cs) = readMagnitude? false (c :: cs) := by
    rw [readNumber?]
    rintro r ⟨⟩
    simp at hc
  exact readScalar_of_readNumber hfind (hnumber.trans h)

/-- A scalar that starts with a minus and a digit is a number with a sign. -/
theorem readScalar_minus_digit {c : Char} {cs r : List Char} {v : Value} (hc : c.isDigit = true)
    (h : readMagnitude? true (c :: cs) = some (v, r)) :
    readScalar ('-' :: c :: cs) =
      if isTooLong v then .error ⟨.tooManyDigits, ('-' :: c :: cs).length⟩ else .ok (v, r) := by
  have hI : 'I' ≠ c := by
    rintro rfl
    simp at hc
  have hfind : words.find? (fun w => w.1.isPrefixOf ('-' :: c :: cs)) = none := by
    simp [words, List.isPrefixOf, hI]
  exact readScalar_of_readNumber hfind h

theorem exists_digits (n : Nat) : ∃ c ds, Number.digits n = c :: ds ∧ c.isDigit = true := by
  obtain ⟨c, ds, hds⟩ : ∃ c ds, Number.digits n = c :: ds :=
    List.exists_cons_of_ne_nil Nat.toDigits_ne_nil
  exact ⟨c, ds, hds, isDigit_of_mem_digits (n := n) (by simp [hds])⟩

/-- The digits of an integer are read as the integer, unless they are too many. -/
theorem readScalar_intText (n : Int) :
    readScalar (Number.intText n) =
      if isTooLong (.int n) then .error ⟨.tooManyDigits, (Number.intText n).length⟩
      else .ok (.int n, []) := by
  obtain ⟨c, ds, hds, hc⟩ := exists_digits n.natAbs
  by_cases hn : n < 0
  · have hsigned : -(n.natAbs : Int) = n := by omega
    have hread := readMagnitude?_digits true n.natAbs
    rw [if_pos rfl, hsigned, hds] at hread
    rw [Number.intText, if_pos hn, hds]
    exact readScalar_minus_digit hc hread
  · have hsigned : (n.natAbs : Int) = n := by omega
    have hread := readMagnitude?_digits false n.natAbs
    rw [if_neg Bool.false_ne_true, hsigned, hds] at hread
    rw [Number.intText, if_neg hn, hds]
    exact readScalar_digit hc hread

/-- The integers that are read and written are those below a power of ten. -/
theorem isShort_iff {n : Int} :
    Number.isShort n = true ↔ n.natAbs < 10 ^ Number.digitLimit := by
  rw [Number.isShort, decide_eq_true_iff]
  exact Nat.length_toDigits_le_iff (by decide) (by decide)

/-- The least number with too many digits. It is never to be computed. -/
@[irreducible] def firstLong : Nat := 10 ^ Number.digitLimit

/-- The least number that is too long is too long. -/
theorem isShort_firstLong : Number.isShort firstLong = false := by
  have hbound : ¬firstLong < 10 ^ Number.digitLimit := by
    unfold firstLong
    exact Nat.lt_irrefl _
  rw [← Int.natAbs_natCast firstLong, ← isShort_iff, Bool.not_eq_true] at hbound
  exact hbound

end Parley.Json
