import Parley.Json.Reader
import Parley.Json.Writer

/-!
# Written strings are read back

The writer escapes everything outside the printable ASCII range by code units, so a character
beyond the first plane becomes a pair of escapes. This file shows that the reader undoes it:

* `readString_escapeChar`: one escaped character is read as that character;
* `readString_escaped`: an escaped text is read up to its closing quote, and no further.

A code-unit escape is only read if some character follows it, which is why the statements about one
character ask for a continuation `x :: tail`.
-/

namespace Parley.Json

/-! ## Code units in hexadecimal -/

/-- A hexadecimal digit is read as its value. -/
theorem hexValue?_digitChar : ∀ d < 16, hexValue? d.digitChar = some d := by decide

/-- Four digits are enough for a unit. -/
theorem hexDigits_four {n : Nat} (h : n < 0x10000) :
    Text.hexDigits 4 n = [(n / 4096).digitChar, (n / 256 % 16).digitChar,
      (n / 16 % 16).digitChar, (n % 16).digitChar] := by
  unfold Text.hexDigits
  -- by the number of digits; the missing ones are filled up with zeros
  by_cases h1 : n < 16
  · have e1 : n / 4096 = 0 := by omega
    have e2 : n / 256 = 0 := by omega
    have e3 : n / 16 = 0 := by omega
    have e4 : n % 16 = n := by omega
    simp [Nat.toDigits_of_lt_base h1, e1, e2, e3, e4]
  by_cases h2 : n < 256
  · have e1 : n / 4096 = 0 := by omega
    have e2 : n / 256 = 0 := by omega
    have e3 : n / 16 % 16 = n / 16 := by omega
    rw [Nat.toDigits_of_base_le (by decide) (by omega),
      Nat.toDigits_of_lt_base (n := n / 16) (by omega)]
    simp [e1, e2, e3]
  by_cases h3 : n < 4096
  · have e1 : n / 4096 = 0 := by omega
    have e2 : n / 256 % 16 = n / 16 / 16 := by omega
    rw [Nat.toDigits_of_base_le (by decide) (by omega),
      Nat.toDigits_of_base_le (n := n / 16) (by decide) (by omega),
      Nat.toDigits_of_lt_base (n := n / 16 / 16) (by omega)]
    simp [e1, e2]
  · have e1 : n / 4096 = n / 16 / 16 / 16 := by omega
    have e2 : n / 256 % 16 = n / 16 / 16 % 16 := by omega
    rw [Nat.toDigits_of_base_le (by decide) (by omega),
      Nat.toDigits_of_base_le (n := n / 16) (by decide) (by omega),
      Nat.toDigits_of_base_le (n := n / 16 / 16) (by decide) (by omega),
      Nat.toDigits_of_lt_base (n := n / 16 / 16 / 16) (by omega)]
    simp [e1, e2]

/-- A unit is read from its four digits. -/
theorem hexUnit?_digitChars {n : Nat} (h : n < 0x10000) :
    hexUnit? (n / 4096).digitChar (n / 256 % 16).digitChar (n / 16 % 16).digitChar
      (n % 16).digitChar = some n := by
  simp only [hexUnit?, hexValue?_digitChar (n / 4096) (by omega),
    hexValue?_digitChar (n / 256 % 16) (by omega), hexValue?_digitChar (n / 16 % 16) (by omega),
    hexValue?_digitChar (n % 16) (by omega), Option.bind_eq_bind, Option.bind_some, Option.pure_def,
    Option.some.injEq]
  omega

/-! ## One escape -/

/-- An escaped unit that is no first half of a pair stands for a character. -/
theorem readString_unit {n : Nat} {a b c d : Char} (start : Nat) (x : Char) (tail : List Char)
    (h : hexUnit? a b c d = some n) (hn : isHighSurrogate n = false) :
    readString start ('\\' :: 'u' :: a :: b :: c :: d :: x :: tail) =
      consChar (unitChar n) (readString start (x :: tail)) := by
  -- a unit that is no high surrogate stands alone, even if another follows
  by_cases hx : ∃ e f g i y r, x :: tail = '\\' :: 'u' :: e :: f :: g :: i :: y :: r
  · obtain ⟨e, f, g, i, y, r, hr⟩ := hx
    rw [hr, readString, h]
    simp [hn]
  · rw [readString]
    · rw [h]
    · rintro e f g i y r rfl rfl
      exact hx ⟨e, f, g, i, y, r, rfl⟩

/-- Two escaped halves stand for one character. -/
theorem readString_pair {high low : Nat} {a b c d e f g i : Char} (start : Nat) (x : Char)
    (tail : List Char) (h : hexUnit? a b c d = some high) (hh : isHighSurrogate high = true)
    (l : hexUnit? e f g i = some low) (hl : isLowSurrogate low = true) :
    readString start
        ('\\' :: 'u' :: a :: b :: c :: d :: '\\' :: 'u' :: e :: f :: g :: i :: x :: tail) =
      consChar (pairChar high low) (readString start (x :: tail)) := by
  rw [readString, h]
  simp [hh, l, hl]

/-- Most characters stand for themselves. -/
theorem readString_plain {start : Nat} {c : Char} {tail : List Char} (hq : c ≠ '"')
    (hb : c ≠ '\\') (hc : 0x20 ≤ c.toNat) :
    readString start (c :: tail) = consChar c (readString start tail) := by
  rw [readString, if_neg (Nat.not_lt.2 hc)] <;> simp [hq, hb]

theorem readString_simple {start : Nat} {c e : Char} {tail : List Char}
    (h : simpleEscape? c = some e) :
    readString start ('\\' :: c :: tail) = consChar e (readString start tail) := by
  have hu : c ≠ 'u' := by
    rintro rfl
    simp [simpleEscape?] at h
  rw [readString] <;> simp_all

/-! ## One character -/

theorem isHighSurrogate_toNat (c : Char) : isHighSurrogate c.toNat = false := by
  have := c.valid
  simp only [isHighSurrogate, Char.toNat]
  simp only [UInt32.isValidChar, Nat.isValidChar] at this
  simp only [Bool.and_eq_false_imp, decide_eq_true_eq, decide_eq_false_iff_not]
  omega

/-- A character is the one with its number. -/
theorem unitChar_toNat (c : Char) : unitChar c.toNat = c := by
  have := c.valid
  simp only [UInt32.isValidChar, Nat.isValidChar] at this
  simp only [unitChar, isHighSurrogate_toNat, isLowSurrogate, Bool.false_or]
  -- a character is never a surrogate
  rw [if_neg, Char.ofNat_toNat]
  simp only [Char.toNat, Bool.and_eq_true, decide_eq_true_eq]
  omega

/-- A character of the basic plane is read back from its escape. -/
theorem readString_unitEscape {start : Nat} {c x : Char} {tail : List Char}
    (hc : c.toNat < 0x10000) :
    readString start (unitEscape c.toNat ++ x :: tail) =
      consChar c (readString start (x :: tail)) := by
  rw [unitEscape, hexDigits_four hc]
  have h := readString_unit start x tail (hexUnit?_digitChars hc) (isHighSurrogate_toNat c)
  rw [unitChar_toNat] at h
  exact h

/-- A character beyond it is read back from the escapes of its halves. -/
theorem readString_pairEscape {start : Nat} {c x : Char} {tail : List Char}
    (hc : 0x10000 ≤ c.toNat) :
    readString start (unitEscape (0xd800 + (c.toNat - 0x10000) / 0x400) ++
        (unitEscape (0xdc00 + (c.toNat - 0x10000) % 0x400) ++ x :: tail)) =
      consChar c (readString start (x :: tail)) := by
  have hlt : c.toNat < 0x110000 := by
    have := c.valid
    simp only [UInt32.isValidChar, Nat.isValidChar] at this
    simp only [Char.toNat]
    omega
  have hhigh : 0xd800 + (c.toNat - 0x10000) / 0x400 < 0x10000 := by omega
  have hlow : 0xdc00 + (c.toNat - 0x10000) % 0x400 < 0x10000 := by omega
  rw [unitEscape, unitEscape, hexDigits_four hhigh, hexDigits_four hlow]
  -- the two halves add up to the character
  have hpair : pairChar (0xd800 + (c.toNat - 0x10000) / 0x400)
      (0xdc00 + (c.toNat - 0x10000) % 0x400) = c := by
    rw [pairChar, show 0x10000 + (0xd800 + (c.toNat - 0x10000) / 0x400 - 0xd800) * 0x400 +
      (0xdc00 + (c.toNat - 0x10000) % 0x400 - 0xdc00) = c.toNat by omega, Char.ofNat_toNat]
  have hfirst : isHighSurrogate (0xd800 + (c.toNat - 0x10000) / 0x400) = true := by
    simp only [isHighSurrogate, Bool.and_eq_true, decide_eq_true_eq]
    omega
  have hsecond : isLowSurrogate (0xdc00 + (c.toNat - 0x10000) % 0x400) = true := by
    simp only [isLowSurrogate, Bool.and_eq_true, decide_eq_true_eq]
    omega
  have h := readString_pair start x tail (hexUnit?_digitChars hhigh) hfirst
    (hexUnit?_digitChars hlow) hsecond
  rw [hpair] at h
  exact h

/-- Every character is read back from the way in which it is written. -/
theorem readString_escapeChar {start : Nat} (c : Char) {x : Char} {tail : List Char} :
    readString start (escapeChar c ++ x :: tail) =
      consChar c (readString start (x :: tail)) := by
  fun_cases escapeChar c with
  | case1 h => subst h; exact readString_simple rfl
  | case2 _ h => subst h; exact readString_simple rfl
  | case3 _ _ h => subst h; exact readString_simple rfl
  | case4 _ _ _ h => subst h; exact readString_simple rfl
  | case5 _ _ _ _ h => subst h; exact readString_simple rfl
  | case6 _ _ _ _ _ h => subst h; exact readString_simple rfl
  | case7 _ _ _ _ _ _ h => subst h; exact readString_simple rfl
  -- the characters that stand for themselves, those of one unit and those of two
  | case8 hq hb _ _ _ _ _ h => exact readString_plain hq hb h.1
  | case9 _ _ _ _ _ _ _ _ h => exact readString_unitEscape h
  | case10 _ _ _ _ _ _ _ _ h =>
    rw [List.append_assoc]
    exact readString_pairEscape (by omega)

/-- The escaped form of a text, up to the closing quote, is read as the text. -/
theorem readString_escaped (start : Nat) (cs rest : List Char) :
    readString start (cs.flatMap escapeChar ++ '"' :: rest) = .ok (cs, rest) := by
  induction cs with
  | nil => rfl
  | cons c cs ih =>
    rw [List.flatMap_cons, List.append_assoc]
    -- an escape is read only if something follows, and at least the quote does
    obtain ⟨x, tail, h⟩ : ∃ x tail, cs.flatMap escapeChar ++ '"' :: rest = x :: tail :=
      List.exists_cons_of_ne_nil (by simp)
    rw [h, readString_escapeChar, ← h, ih]
    rfl

end Parley.Json
