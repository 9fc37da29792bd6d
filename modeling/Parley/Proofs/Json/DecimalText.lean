import Parley.Number.Layout
import Parley.Proofs.Json.NumberText
import Parley.Proofs.Number.Shortest

/-!
# Written floating-point numbers are read back

However the digits of a number are laid out, the text is read as a decimal with the same value, and
the shortest decimal of a number is rounded to the number. So is its sign, and the special values
have texts of their own.

* `readMagnitude?_text`: a text with a point or an exponent is read as the decimal it writes;
* `value_positionalText`, `value_exponentialText`: what the two layouts write;
* `Double.readScalar_layout`: the text of a number is read as the number, or as the plain NaN.
-/

namespace Parley.Json

/-! ## Parts of a decimal -/

/-- Digits of a whole number: a zero alone, or digits that start with another. -/
structure Whole (cs : List Char) : Prop where
  digits : ∀ c ∈ cs, c.isDigit = true
  nonempty : cs ≠ []
  zero : cs.head? = some '0' → cs = ['0']

def StopsDigits (rest : List Char) : Prop :=
  ∀ c ∈ rest.head?, c.isDigit = false

/-- Digits are taken up to where no digit follows. -/
theorem takeWhile_digits_append {cs rest : List Char} (hcs : ∀ c ∈ cs, c.isDigit = true)
    (hrest : StopsDigits rest) :
    (cs ++ rest).takeWhile Char.isDigit = cs ∧ (cs ++ rest).dropWhile Char.isDigit = rest := by
  rw [List.takeWhile_append_of_pos hcs, List.dropWhile_append_of_pos hcs]
  cases rest with
  | nil => simp
  | cons c rest =>
    have hc : c.isDigit = false := hrest c rfl
    simp [hc]

/-- A whole number is read to its last digit. -/
theorem readWhole_append {cs rest : List Char} (h : Whole cs) (hrest : StopsDigits rest) :
    readWhole (cs ++ rest) = (cs, rest) := by
  rcases takeWhile_digits_append h.digits hrest with ⟨htake, hdrop⟩
  cases cs with
  | nil => exact absurd rfl h.nonempty
  | cons c cs =>
    -- a leading zero ends the digits at once, so they have to be that zero
    by_cases hc : c = '0'
    · subst hc
      have hnone := h.zero rfl
      cases hnone
      rfl
    · simp only [List.cons_append] at htake hdrop ⊢
      simp only [readWhole, hc, if_false, htake, hdrop]

/-- The places behind a point are read to the last one. -/
theorem readPlaces_append {places rest : List Char} (hplaces : ∀ c ∈ places, c.isDigit = true)
    (hsome : places ≠ []) (hrest : StopsDigits rest) :
    readPlaces ('.' :: (places ++ rest)) = (places, rest) := by
  rcases takeWhile_digits_append hplaces hrest with ⟨htake, hdrop⟩
  cases places with
  | nil => exact absurd rfl hsome
  | cons d places =>
    have hd : d.isDigit = true := hplaces d (by simp)
    simp only [List.cons_append] at htake hdrop ⊢
    simp only [readPlaces, hd, if_true, htake, hdrop]

def exponentText (negative : Bool) (mark : List Char) : List Char :=
  'e' :: (if negative then '-' else '+') :: mark

/-- An exponent is read back with its sign. -/
theorem readExponent_exponentText {mark : List Char} (negative : Bool)
    (hmark : ∀ c ∈ mark, c.isDigit = true) (hsome : mark ≠ []) :
    readExponent (exponentText negative mark) =
      (some (if negative then -(Number.ofDigits mark : Int) else Number.ofDigits mark), []) := by
  have htake : mark.takeWhile Char.isDigit = mark := List.takeWhile_eq_self_iff.2 hmark
  have hdrop : mark.dropWhile Char.isDigit = [] := List.dropWhile_eq_nil_iff.2 hmark
  cases negative <;> simp [exponentText, readExponent, readSign, htake, hdrop, hsome]

/-! ## Decimals -/

/-- A decimal in writing: whole digits, places behind a point, and an exponent. -/
structure Written where
  whole : List Char
  places : List Char
  exponent : Option (Bool × List Char)

namespace Written

/-- The exponent of a decimal as a number, if it has one. -/
def power (w : Written) : Option Int :=
  w.exponent.map fun mark =>
    if mark.1 then -(Number.ofDigits mark.2 : Int) else Number.ofDigits mark.2

def rest (w : Written) : List Char :=
  match w.exponent with
  | some (negative, mark) => exponentText negative mark
  | none => []

def text (w : Written) : List Char :=
  w.whole ++ ((if w.places = [] then [] else '.' :: w.places) ++ w.rest)

def number (w : Written) : Nat :=
  Number.ofDigits (w.whole ++ w.places)

/-- The power of ten that the digits are multiplied by. -/
def scale (w : Written) : Int :=
  w.power.getD 0 - w.places.length

def value (w : Written) : ℚ :=
  w.number * 10 ^ w.scale

/-- A decimal is written as the reader wants it, and not as an integer. -/
structure Proper (w : Written) : Prop where
  whole : Whole w.whole
  places : ∀ c ∈ w.places, c.isDigit = true
  exponent : ∀ mark ∈ w.exponent, (∀ c ∈ mark.2, c.isDigit = true) ∧ mark.2 ≠ []
  decimal : w.places ≠ [] ∨ w.exponent ≠ none

variable {w : Written}

theorem stopsDigits_rest (w : Written) : StopsDigits w.rest := by
  rcases w with ⟨whole, places, - | mark⟩
  · intro c hc
    cases hc
  · intro c hc
    cases hc
    rfl

theorem stopsDigits_tail (w : Written) :
    StopsDigits ((if w.places = [] then [] else '.' :: w.places) ++ w.rest) := by
  split
  · exact stopsDigits_rest w
  · intro c hc
    cases hc
    rfl

/-- The exponent of a written decimal is read from the end of it. -/
theorem readExponent_rest (h : w.Proper) : readExponent w.rest = (w.power, []) := by
  rcases w with ⟨whole, places, - | ⟨negative, mark⟩⟩
  · rfl
  · rcases h.exponent (negative, mark) rfl with ⟨hdigits, hsome⟩
    exact readExponent_exponentText negative hdigits hsome

/-- The places of a written decimal are read from what follows the whole number. -/
theorem readPlaces_tail (h : w.Proper) :
    readPlaces ((if w.places = [] then [] else '.' :: w.places) ++ w.rest) =
      (w.places, w.rest) := by
  by_cases hnone : w.places = []
  · rw [if_pos hnone, hnone]
    rcases w with ⟨whole, places, - | mark⟩
    · rfl
    · rfl
  · rw [if_neg hnone]
    exact readPlaces_append h.places hnone (stopsDigits_rest w)

end Written

/-- A decimal is read as its digits times a power of ten. -/
theorem readMagnitude?_text {w : Written} (h : w.Proper) (negative : Bool) :
    readMagnitude? negative w.text =
      some (.float (Double.ofScientific negative w.number w.scale), []) := by
  have hwhole := readWhole_append h.whole (Written.stopsDigits_tail w)
  have hplaces := Written.readPlaces_tail h
  have hexponent := Written.readExponent_rest h
  -- an integer would be read exactly, a decimal is rounded
  have hdecimal : ¬(w.places = [] ∧ w.power = none) := by
    rintro ⟨hnone, hint⟩
    rcases h.decimal with hsome | hsome
    · exact hsome hnone
    · exact hsome (Option.map_eq_none_iff.1 hint)
  simp only [readMagnitude?, Written.text, hwhole, hplaces, hexponent, h.whole.nonempty, if_false,
    if_neg hdecimal]
  rfl

/-! ## The two layouts -/

theorem whole_cons {c : Char} {cs : List Char} (hc : c ≠ '0')
    (hdigits : ∀ x ∈ c :: cs, x.isDigit = true) : Whole (c :: cs) where
  digits := hdigits
  nonempty := by simp
  zero := by
    intro h
    cases h
    exact absurd rfl hc

theorem whole_zero : Whole ['0'] where
  digits := by simp
  nonempty := List.cons_ne_nil _ _
  zero := by simp

theorem isDigit_replicate_zero (n : Nat) : ∀ c ∈ List.replicate n '0', c.isDigit = true := by
  intro c hc
  rw [List.eq_of_mem_replicate hc]
  rfl

/-- A zero behind the digits makes the number ten times as large. -/
theorem ofDigits_append_zeros (ds : List Char) (n : Nat) :
    Number.ofDigits (ds ++ List.replicate n '0') = 10 ^ n * Number.ofDigits ds := by
  have happend := Nat.ofDigitChars_append (b := 10) (l := ds) (m := List.replicate n '0') 0
  rw [Nat.ofDigitChars_replicate_zero] at happend
  exact happend

/-- A zero in front of the digits does not change the number. -/
theorem ofDigits_zeros_append (ds : List Char) (n : Nat) :
    Number.ofDigits (List.replicate n '0' ++ ds) = Number.ofDigits ds := by
  have happend := Nat.ofDigitChars_append (b := 10) (l := List.replicate n '0') (m := ds) 0
  rw [Nat.ofDigitChars_replicate_zero, Nat.mul_zero] at happend
  exact happend

def positionalText (digits : List Char) (point : Int) : Written :=
  if point ≤ 0 then ⟨['0'], List.replicate (-point).toNat '0' ++ digits, none⟩
  else if point.toNat < digits.length then
    ⟨digits.take point.toNat, digits.drop point.toNat, none⟩
  else ⟨digits ++ List.replicate (point.toNat - digits.length) '0', ['0'], none⟩

/-- The positional layout is the text of a decimal. -/
theorem layoutPositional_eq {digits : List Char} (hsome : digits ≠ []) (point : Int) :
    Double.layoutPositional digits point = (positionalText digits point).text := by
  unfold Double.layoutPositional positionalText
  split
  · simp [Written.text, Written.rest, hsome]
  · dsimp only
    split
    · rename_i hlt
      have hplaces : digits.drop point.toNat ≠ [] := by
        simpa using hlt
      simp [Written.text, Written.rest, hplaces]
    · simp [Written.text, Written.rest]

/-- The decimal of that layout is well-formed. -/
theorem proper_positionalText {c : Char} {ds : List Char} (hc : c ≠ '0')
    (hdigits : ∀ x ∈ c :: ds, x.isDigit = true) (point : Int) :
    (positionalText (c :: ds) point).Proper := by
  unfold positionalText
  split
  -- the digits stand behind the point
  · refine ⟨whole_zero, ?_, by simp, .inl (by simp)⟩
    intro x hx
    rcases List.mem_append.1 hx with hzero | hdigit
    · exact isDigit_replicate_zero _ x hzero
    · exact hdigits x hdigit
  · split
    -- the digits stand on both sides of it
    · rename_i hpos hlt
      obtain ⟨n, hn⟩ : ∃ n, point.toNat = n + 1 := ⟨point.toNat - 1, by omega⟩
      rw [hn] at hlt ⊢
      refine ⟨?_, ?_, by simp, .inl (by simpa using hlt)⟩
      · rw [List.take_succ_cons]
        apply whole_cons hc
        intro x hx
        rw [← List.take_succ_cons] at hx
        exact hdigits x (List.mem_of_mem_take hx)
      · intro x hx
        exact hdigits x (List.mem_of_mem_drop hx)
    -- the digits stand before it, filled up with zeros
    · refine ⟨?_, whole_zero.digits, by simp, .inl (by simp)⟩
      apply whole_cons hc
      intro x hx
      rcases List.mem_append.1 (List.cons_append ▸ hx) with hdigit | hzero
      · exact hdigits x hdigit
      · exact isDigit_replicate_zero _ x hzero

/-- Its value is that of the digits, with the point where it stands. -/
theorem value_positionalText (digits : List Char) (point : Int) :
    (positionalText digits point).value =
      Number.ofDigits digits * 10 ^ (point - digits.length : Int) := by
  unfold positionalText
  split
  · have hnumber : Number.ofDigits (['0'] ++ (List.replicate (-point).toNat '0' ++ digits)) =
        Number.ofDigits digits := by
      have hzeros := ofDigits_zeros_append digits ((-point).toNat + 1)
      rw [List.replicate_succ] at hzeros
      exact hzeros
    have hscale : (0 - ((-point).toNat + digits.length : Nat) : Int) = point - digits.length := by
      omega
    simp only [Written.value, Written.number, Written.scale, Written.power, hnumber,
      Option.map_none, Option.getD_none, List.length_append, List.length_replicate, hscale]
  · split
    · have hscale : (0 - (digits.length - point.toNat : Nat) : Int) = point - digits.length := by
        omega
      simp only [Written.value, Written.number, Written.scale, Written.power,
        List.take_append_drop, Option.map_none, Option.getD_none, List.length_drop, hscale]
    · have hnumber : Number.ofDigits (digits ++
          List.replicate (point.toNat - digits.length) '0' ++ ['0']) =
            10 ^ (point.toNat - digits.length + 1) * Number.ofDigits digits := by
        rw [List.append_assoc, ← ofDigits_append_zeros, List.replicate_succ']
      -- one of the zeros is the place behind the point, which the scale takes back
      have hscale : (point - digits.length : Int) =
          ((point.toNat - digits.length + 1 : Nat) : Int) + (0 - ((1 : Nat) : Int)) := by
        omega
      simp only [Written.value, Written.number, Written.scale, Written.power, hnumber,
        Option.map_none, Option.getD_none, List.length_singleton]
      rw [hscale, zpow_add₀ (by norm_num), zpow_natCast]
      push_cast
      ring

/-- The digits of an exponent, of which there are at least two. -/
def markText (e : Int) : List Char :=
  if (Nat.toDigits 10 e.natAbs).length < 2 then '0' :: Nat.toDigits 10 e.natAbs
  else Nat.toDigits 10 e.natAbs

def exponentialText (c : Char) (ds : List Char) (point : Int) : Written :=
  ⟨[c], ds, some (decide (point - 1 < 0), markText (point - 1))⟩

/-- The exponential layout is the text of a decimal, too. -/
theorem layoutExponent_eq (c : Char) (ds : List Char) (point : Int) :
    Double.layoutExponent (c :: ds) point = (exponentialText c ds point).text := by
  unfold Double.layoutExponent exponentialText Written.text Written.rest exponentText markText
  cases ds <;> simp

theorem isDigit_markText (e : Int) : ∀ c ∈ markText e, c.isDigit = true := by
  intro c hc
  unfold markText at hc
  split at hc
  · rcases List.mem_cons.1 hc with rfl | hc
    · rfl
    · exact isDigit_of_mem_digits hc
  · exact isDigit_of_mem_digits hc

/-- The digits of an exponent stand for it. -/
theorem ofDigits_markText (e : Int) : Number.ofDigits (markText e) = e.natAbs := by
  unfold markText
  split
  · exact (ofDigits_zeros_append _ 1).trans (ofDigits_digits _)
  · exact ofDigits_digits _

theorem proper_exponentialText {c : Char} {ds : List Char} (hc : c ≠ '0')
    (hdigits : ∀ x ∈ c :: ds, x.isDigit = true) (point : Int) :
    (exponentialText c ds point).Proper where
  whole := by
    apply whole_cons hc
    intro x hx
    rcases List.mem_singleton.1 hx with rfl
    exact hdigits x (by simp)
  places := by
    intro x hx
    exact hdigits x (List.mem_cons_of_mem c hx)
  exponent := by
    rintro mark ⟨⟩
    refine ⟨isDigit_markText _, ?_⟩
    dsimp only [markText]
    split
    · simp
    · exact Nat.toDigits_ne_nil
  decimal := .inr (by simp [exponentialText])

/-- The value of the exponential decimal is the same. -/
theorem value_exponentialText (c : Char) (ds : List Char) (point : Int) :
    (exponentialText c ds point).value =
      Number.ofDigits (c :: ds) * 10 ^ (point - (c :: ds).length : Int) := by
  have hpower : (exponentialText c ds point).power = some (point - 1) := by
    have hmark := ofDigits_markText (point - 1)
    simp only [exponentialText, Written.power, Option.map_some, hmark, decide_eq_true_eq]
    split
    · rename_i hneg
      rw [Int.ofNat_natAbs_of_nonpos hneg.le, neg_neg]
    · rename_i hnonneg
      rw [Int.natAbs_of_nonneg (not_lt.1 hnonneg)]
  have hscale : (exponentialText c ds point).scale = point - (c :: ds).length := by
    rw [Written.scale, hpower]
    simp only [exponentialText, Option.getD_some, List.length_cons]
    omega
  rw [Written.value, hscale]
  rfl

end Parley.Json

/-! ## Numbers -/

namespace Parley.Double

open Parley.Json

variable {x : Double}

/-- The layout of a number other than zero is a decimal that is near it. -/
theorem exists_written (hfinite : x.isFinite = true) (hzero : x.isZero = false) :
    ∃ w : Written, w.Proper ∧ x.layoutMagnitude = w.text ∧ Near x w.value := by
  rcases shortest_near hfinite hzero with ⟨d, p, hshortest, hd, hnear⟩
  rcases head_digits_ne_zero hd.ne' with ⟨c, ds, hds, hc⟩
  have hdigits : ∀ y ∈ c :: ds, y.isDigit = true := by
    intro y hy
    exact isDigit_of_mem_digits (hds ▸ hy)
  have hnumber : Number.ofDigits (c :: ds) = d := by
    rw [← hds, ofDigits_digits]
  have hcount : digitCount d = (c :: ds).length := congrArg List.length hds
  have hdigits10 : Nat.toDigits 10 d = c :: ds := hds
  rw [hcount] at hnear
  simp only [layoutMagnitude, hzero, Bool.false_eq_true, if_false, hshortest, hdigits10]
  -- the layout is chosen by where the point stands; the number is the same
  split
  · refine ⟨_, proper_positionalText hc hdigits p, layoutPositional_eq (by simp) p, ?_⟩
    rw [value_positionalText, hnumber]
    exact hnear
  · refine ⟨_, proper_exponentialText hc hdigits p, layoutExponent_eq c ds p, ?_⟩
    rw [value_exponentialText, hnumber]
    exact hnear

/-- The text of a finite number without its sign is read, with the sign, as the number. -/
theorem readMagnitude?_layoutMagnitude (hfinite : x.isFinite = true) :
    readMagnitude? x.negative x.layoutMagnitude = some (.float x, []) ∧
      ∃ c cs, x.layoutMagnitude = c :: cs ∧ c.isDigit = true := by
  cases hzero : x.isZero with
  | true =>
    have hmagnitude : x.magnitude = 0 := of_decide_eq_true hzero
    have hx : ofMagnitude x.negative 0 = x := by
      rw [← hmagnitude]
      exact ofMagnitude_parts x
    have hlayout : x.layoutMagnitude = ['0', '.', '0'] := by
      simp [layoutMagnitude, hzero]
    have hread : ∀ negative, readMagnitude? negative ['0', '.', '0'] =
        some (.float (ofMagnitude negative 0), []) := by
      intro negative
      cases negative <;> rfl
    rw [hlayout, hread, hx]
    exact ⟨rfl, '0', ['.', '0'], rfl, rfl⟩
  | false =>
    rcases exists_written hfinite hzero with ⟨w, hproper, hlayout, hnear⟩
    -- digits that are all zero would be too far away
    have hnumber : 0 < w.number := by
      have hlow := (near_bounds hfinite (significand_pos hzero) hnear).1
      by_contra hne
      have hnone : w.number = 0 := by omega
      rw [Written.value, hnone, Nat.cast_zero, zero_mul] at hlow
      exact absurd hlow (not_le.2 (two_zpow_pos _))
    have hx := ofScientific_of_near hfinite (significand_pos hzero) hnumber hnear
    rcases List.exists_cons_of_ne_nil hproper.whole.nonempty with ⟨c, cs, hwhole⟩
    have hhead := hproper.whole.digits c (by simp [hwhole])
    rw [hlayout, readMagnitude?_text hproper, hx]
    exact ⟨rfl, c, _, by rw [Written.text, hwhole, List.cons_append], hhead⟩

/-- A number that is neither finite nor a NaN is infinity with its sign. -/
theorem eq_infinity (hfinite : x.isFinite = false) (hnan : x.isNaN = false) :
    x = infinity x.negative := by
  have hfield : ¬x.magnitude / 2 ^ 52 < 0x7ff := of_decide_eq_false hfinite
  have hlt := magnitude_lt x
  -- the greatest exponent without a fraction is left
  have htop : x.exponentField = 0x7ff := by
    unfold exponentField
    omega
  have hfraction : x.magnitude % 2 ^ 52 = 0 := by
    rw [isNaN, Bool.and_eq_false_iff, decide_eq_false_iff_not, decide_eq_false_iff_not,
      not_not] at hnan
    rcases hnan with hnot | hfraction
    · exact absurd htop hnot
    · exact hfraction
  have hmagnitude : x.magnitude = 0x7ff * 2 ^ 52 := by
    unfold exponentField at htop
    omega
  have hparts := ofMagnitude_parts x
  rw [hmagnitude] at hparts
  exact hparts.symm

/-- The number that the text of a number is read as: all NaNs have the text of the plain one. -/
def readBack (x : Double) : Double :=
  if x.isNaN then nan else x

/-- All numbers but the unusual NaNs are read back as they are. -/
theorem readBack_of_plain (h : x.plain = true) : x.readBack = x := by
  unfold readBack
  split
  · rename_i hnan
    have hx : x = nan := by
      simpa [plain, hnan] using h
    exact hx.symm
  · rfl

theorem not_isNaN_of_isFinite (h : x.isFinite = true) : x.isNaN = false := by
  have hfield : x.exponentField < 0x7ff := of_decide_eq_true h
  simp [isNaN, hfield.ne]

/-- The interchange text of a number is read to its end. -/
theorem readScalar_layout (x : Double) :
    readScalar (x.layout .interchange) = .ok (.float x.readBack, []) := by
  unfold layout
  cases hfinite : x.isFinite with
  | true =>
    have hback : x.readBack = x := by
      simp [readBack, not_isNaN_of_isFinite hfinite]
    rw [hback]
    rcases readMagnitude?_layoutMagnitude hfinite with ⟨hread, c, cs, htext, hc⟩
    rw [htext] at hread ⊢
    cases hsign : x.negative with
    | true =>
      rw [hsign] at hread
      simp only [if_true]
      exact readScalar_minus_digit hc hread
    | false =>
      rw [hsign] at hread
      simp only [if_true, Bool.false_eq_true, if_false]
      exact readScalar_digit hc hread
  | false =>
    cases hnan : x.isNaN with
    | true =>
      simp only [readBack, hnan, if_true]
      rfl
    | false =>
      have hback : x.readBack = x := by
        simp [readBack, hnan]
      have hx := eq_infinity hfinite hnan
      rw [hback]
      generalize x.negative = negative at hx ⊢
      rw [hx]
      cases negative <;> rfl

end Parley.Double
