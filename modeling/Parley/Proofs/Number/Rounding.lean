import Mathlib.Algebra.Order.Field.Power
import Mathlib.Algebra.Order.Field.Rat
import Mathlib.Data.Rat.Cast.Order
import Mathlib.Tactic.FieldSimp
import Mathlib.Tactic.Linarith
import Mathlib.Tactic.NormNum
import Mathlib.Tactic.Positivity
import Mathlib.Tactic.Ring
import Parley.Number.Double

/-!
# Rounding to binary floating-point numbers

A quotient is rounded to the number of the format in whose rounding interval it lies. The interval
of `m * 2 ^ e` reaches half a unit to each side, but only a quarter below a power of two, where the
neighbouring numbers are twice as dense. Its ends belong to it exactly if `m` is even.

* `roundDiv_eq`, `ratioExponent_eq`: the two parts of rounding a quotient;
* `Near`: a rational number lies in the interval of a number;
* `ofRatio_of_near`: what is near a number is rounded to it.
-/

namespace Parley.Double

open Number (powNum powDen)

/-! ## Parts of a number -/

theorem magnitude_lt (x : Double) : x.magnitude < 2 ^ 63 :=
  Nat.mod_lt _ (by positivity)

/-- A number is put together again from its sign and its magnitude. -/
theorem ofMagnitude_parts (x : Double) : ofMagnitude x.negative x.magnitude = x := by
  rcases x with ⟨bits⟩
  have hbits : bits.toNat < 2 ^ 64 := bits.toNat_lt
  have hsum : (if 0x8000000000000000 ≤ bits.toNat then 0x8000000000000000 else 0) +
      bits.toNat % 0x8000000000000000 = bits.toNat := by
    split <;> omega
  simp only [ofMagnitude, negative, magnitude, decide_eq_true_eq, hsum]
  exact congrArg Double.mk (UInt64.ofNat_toNat)

variable {x : Double}

/-- The significand has 53 bits at most. -/
theorem significand_lt (x : Double) : x.significand < 2 ^ 53 := by
  have hfraction : x.fraction < 2 ^ 52 := Nat.mod_lt _ (by positivity)
  unfold significand
  split <;> omega

/-- No exponent is less than that of the least number. -/
theorem exponent_ge (x : Double) : -1074 ≤ x.exponent := by
  unfold exponent
  split <;> omega

/-- No finite number has an exponent above the largest. -/
theorem exponent_le (h : x.isFinite = true) : x.exponent ≤ 971 := by
  have hfield : x.exponentField < 0x7ff := of_decide_eq_true h
  unfold exponent
  split <;> omega

theorem significand_pos (h : x.isZero = false) : 0 < x.significand := by
  have hne : x.magnitude ≠ 0 := by
    intro hzero
    simp [isZero, hzero] at h
  have hparts : x.exponentField * 2 ^ 52 + x.fraction = x.magnitude :=
    Nat.div_add_mod' x.magnitude (2 ^ 52)
  unfold significand
  split
  · rename_i hfield
    rw [hfield] at hparts
    omega
  · omega

/-- The magnitude field counts the numbers in their order. -/
theorem magnitude_eq (x : Double) :
    x.magnitude = (x.exponent + 1074).toNat * 0x10000000000000 + x.significand := by
  have hparts : x.exponentField * 2 ^ 52 + x.fraction = x.magnitude :=
    Nat.div_add_mod' x.magnitude (2 ^ 52)
  unfold exponent significand
  split <;> omega

/-- The magnitude of a finite number is below that of infinity. -/
theorem magnitude_lt_of_isFinite (h : x.isFinite = true) : x.magnitude < 0x7ff * 2 ^ 52 := by
  have hfield : x.magnitude / 2 ^ 52 < 0x7ff := by
    exact of_decide_eq_true h
  omega

/-! ## Rounding a quotient to an integer -/

/-- A rational number is rounded to an integer: they are at most a half apart, and exactly a half
only if the integer is even. -/
structure RoundsTo (r : ℚ) (m : Nat) : Prop where
  low : (m : ℚ) - 1 / 2 ≤ r
  high : r ≤ m + 1 / 2
  tie : m % 2 = 0 ∨ ((m : ℚ) - 1 / 2 < r ∧ r < m + 1 / 2)

/-- Division rounds to the nearest integer, and to the even one of two. -/
theorem roundDiv_eq {num den m : Nat} (hden : 0 < den) (h : RoundsTo (num / den) m) :
    roundDiv num den = m := by
  have hpos : (0 : ℚ) < den := by exact_mod_cast hden
  -- the bounds on the quotient, as facts about integers
  have hlow : 2 * m * den ≤ 2 * num + den := by
    have hle := (le_div_iff₀ hpos).1 h.low
    have hcast : (2 * m * den : ℚ) ≤ 2 * num + den := by linarith
    exact_mod_cast hcast
  have hhigh : 2 * num ≤ 2 * m * den + den := by
    have hle := (div_le_iff₀ hpos).1 h.high
    have hcast : (2 * num : ℚ) ≤ 2 * m * den + den := by linarith
    exact_mod_cast hcast
  have htie : m % 2 = 0 ∨ (2 * m * den < 2 * num + den ∧ 2 * num < 2 * m * den + den) := by
    rcases h.tie with heven | ⟨hl, hh⟩
    · exact .inl heven
    · have hl := (lt_div_iff₀ hpos).1 hl
      have hh := (div_lt_iff₀ hpos).1 hh
      have hcastl : (2 * m * den : ℚ) < 2 * num + den := by linarith
      have hcasth : (2 * num : ℚ) < 2 * m * den + den := by linarith
      exact .inr ⟨by exact_mod_cast hcastl, by exact_mod_cast hcasth⟩
  have hparts : num / den * den + num % den = num := Nat.div_add_mod' num den
  have hrest : num % den < den := Nat.mod_lt _ hden
  rw [Nat.mul_assoc] at hlow hhigh htie
  simp only [roundDiv]
  generalize num / den = q at hparts ⊢
  generalize num % den = r at hparts hrest ⊢
  -- the integer is the quotient rounded down or the one above; any other is too far away
  have hcases : m * den + den ≤ q * den ∨ m = q ∨ m = q + 1 ∨ q * den + 2 * den ≤ m * den := by
    rcases Nat.lt_trichotomy m q with hlt | heq | hgt
    · have hmul := Nat.mul_le_mul_right den hlt
      rw [Nat.succ_mul] at hmul
      exact .inl hmul
    · exact .inr (.inl heq)
    · rcases Nat.lt_or_eq_of_le hgt with hfar | hnext
      · have hmul := Nat.mul_le_mul_right den hfar
        rw [Nat.succ_mul, Nat.succ_mul] at hmul
        exact .inr (.inr (.inr (by omega)))
      · exact .inr (.inr (.inl hnext.symm))
  rcases hcases with hbelow | rfl | rfl | habove
  · omega
  · split
    · rfl
    · split <;> omega
  · simp only [Nat.add_mul, Nat.one_mul] at hlow hhigh htie
    split
    · omega
    · split <;> omega
  · omega

/-! ## The exponent of a quotient -/

theorem powNum_pos {b : Nat} (hb : 0 < b) (e : Int) : 0 < powNum b e :=
  Nat.pow_pos hb

theorem powDen_pos {b : Nat} (hb : 0 < b) (e : Int) : 0 < powDen b e :=
  Nat.pow_pos hb

/-- The two powers are numerator and denominator of one, whatever the sign of the exponent. -/
theorem powNum_div_powDen (b : Nat) (e : Int) : (powNum b e : ℚ) / powDen b e = b ^ e := by
  rcases Int.le_total 0 e with hnonneg | hneg
  · obtain ⟨n, rfl⟩ := Int.eq_ofNat_of_zero_le hnonneg
    have hden : powDen b n = 1 := by simp [powDen]
    have hnum : powNum b n = b ^ n := by simp [powNum]
    rw [hden, hnum, zpow_natCast]
    simp
  · obtain ⟨n, rfl⟩ := Int.exists_eq_neg_ofNat hneg
    have hden : powDen b (-n) = b ^ n := by simp [powDen]
    have hnum : powNum b (-n) = 1 := by simp [powNum]
    rw [hden, hnum, zpow_neg, zpow_natCast]
    simp

theorem two_zpow_pos (e : Int) : (0 : ℚ) < 2 ^ e := by positivity

theorem ten_zpow_pos (k : Int) : (0 : ℚ) < 10 ^ k := by positivity

variable {num den : Nat}

/-- A quotient lies between the powers of two that the binary digits of its parts give. -/
theorem log2_bounds (hnum : 0 < num) (hden : 0 < den) :
    (2 : ℚ) ^ ((Nat.log2 num : Int) - Nat.log2 den - 1) < num / den ∧
      (num / den : ℚ) < 2 ^ ((Nat.log2 num : Int) - Nat.log2 den + 1) := by
  have hpos : (0 : ℚ) < den := by exact_mod_cast hden
  have hn : (2 : ℚ) ^ (Nat.log2 num : Int) ≤ num := by
    exact_mod_cast Nat.log2_self_le hnum.ne'
  have hn' : (num : ℚ) < 2 ^ ((Nat.log2 num : Int) + 1) := by
    exact_mod_cast Nat.lt_log2_self
  have hd : (2 : ℚ) ^ (Nat.log2 den : Int) ≤ den := by
    exact_mod_cast Nat.log2_self_le hden.ne'
  have hd' : (den : ℚ) < 2 ^ ((Nat.log2 den : Int) + 1) := by
    exact_mod_cast Nat.lt_log2_self
  -- the numerator gives one end, the denominator the other
  constructor
  · apply (lt_div_iff₀ hpos).2
    calc
      (2 : ℚ) ^ ((Nat.log2 num : Int) - Nat.log2 den - 1) * den
          < 2 ^ ((Nat.log2 num : Int) - Nat.log2 den - 1) * 2 ^ ((Nat.log2 den : Int) + 1) := by
            exact mul_lt_mul_of_pos_left hd' (two_zpow_pos _)
      _ = 2 ^ (Nat.log2 num : Int) := by
            rw [← zpow_add₀ (by norm_num)]
            congr 1
            omega
      _ ≤ num := hn
  · apply (div_lt_iff₀ hpos).2
    calc
      (num : ℚ) < 2 ^ ((Nat.log2 num : Int) + 1) := hn'
      _ = 2 ^ ((Nat.log2 num : Int) - Nat.log2 den + 1) * 2 ^ (Nat.log2 den : Int) := by
            rw [← zpow_add₀ (by norm_num)]
            congr 1
            omega
      _ ≤ 2 ^ ((Nat.log2 num : Int) - Nat.log2 den + 1) * den := by
            exact mul_le_mul_of_nonneg_left hd (two_zpow_pos _).le

/-- Scaling a quotient by a power of two. -/
theorem scaled_eq (num den : Nat) (e : Int) :
    ((num * powDen 2 e : Nat) : ℚ) / (den * powNum 2 e : Nat) = num / den / 2 ^ e := by
  have hpow := powNum_div_powDen 2 e
  have hden : (0 : ℚ) < powDen 2 e := by exact_mod_cast powDen_pos Nat.two_pos e
  have hnum : (0 : ℚ) < powNum 2 e := by exact_mod_cast powNum_pos Nat.two_pos e
  rw [Nat.cast_ofNat] at hpow
  rw [← hpow]
  push_cast
  field_simp

/-- Comparing two products is comparing a quotient with a power of two. -/
theorem scaled_lt_iff (num : Nat) (hden : 0 < den) (e : Int) :
    num * powDen 2 e < den * powNum 2 e * 0x10000000000000 ↔ (num / den : ℚ) < 2 ^ (e + 52) := by
  have hpos : (0 : ℚ) < (den * powNum 2 e : Nat) := by
    exact_mod_cast Nat.mul_pos hden (powNum_pos Nat.two_pos e)
  have hgoal : (num / den : ℚ) < 2 ^ (e + 52) ↔ (num / den / 2 ^ e : ℚ) < 2 ^ 52 := by
    rw [div_lt_iff₀ (two_zpow_pos e), zpow_add₀ (by norm_num), mul_comm]
    norm_num
  have hbit : ((2 : ℚ) ^ 52) = (0x10000000000000 : Nat) := by norm_num
  rw [hgoal, ← scaled_eq, div_lt_iff₀ hpos, hbit, ← Nat.cast_mul, Nat.cast_lt,
    mul_comm (den * powNum 2 e)]

/-- The exponent of a quotient is the one at which it has 53 binary digits, or the smallest one if
it has fewer there. -/
theorem ratioExponent_eq {e : Int} (hnum : 0 < num) (hden : 0 < den) (he : -1074 ≤ e)
    (hhigh : (num / den : ℚ) < 2 ^ (e + 53)) (hlow : e = -1074 ∨ (2 : ℚ) ^ (e + 52) ≤ num / den) :
    ratioExponent num den = e := by
  rcases log2_bounds hnum hden with ⟨hbelow, habove⟩
  have htest := scaled_lt_iff num hden ((Nat.log2 num : Int) - Nat.log2 den - 52)
  simp only [ratioExponent, decide_eq_true_eq]
  generalize hguess : (Nat.log2 num : Int) - Nat.log2 den - 52 = guess at htest ⊢
  -- the exponent before the smallest one is taken into account
  have hexact : ∃ t : Int, (if num * powDen 2 guess < den * powNum 2 guess * 0x10000000000000
      then guess - 1 else guess) = t ∧
      (2 : ℚ) ^ (t + 52) ≤ num / den ∧ (num / den : ℚ) < 2 ^ (t + 53) := by
    split
    · rename_i hlow
      have hlt := htest.1 hlow
      refine ⟨guess - 1, rfl, ?_, ?_⟩
      · have hexp : guess - 1 + 52 = (Nat.log2 num : Int) - Nat.log2 den - 1 := by omega
        rw [hexp]
        exact hbelow.le
      · have hexp : guess - 1 + 53 = guess + 52 := by omega
        rw [hexp]
        exact hlt
    · rename_i hnot
      have hge : ¬ (num / den : ℚ) < 2 ^ (guess + 52) := by
        intro hlt
        exact hnot (htest.2 hlt)
      refine ⟨guess, rfl, not_lt.1 hge, ?_⟩
      have hexp : guess + 53 = (Nat.log2 num : Int) - Nat.log2 den + 1 := by omega
      rw [hexp]
      exact habove
  rcases hexact with ⟨t, ht, htlow, hthigh⟩
  rw [ht]
  -- the quotient is below both upper ends and above both lower ones
  have hle : t < e + 1 := by
    have hlt : (2 : ℚ) ^ (t + 52) < 2 ^ (e + 53) := lt_of_le_of_lt htlow hhigh
    have hexp := (zpow_lt_zpow_iff_right₀ (by norm_num : (1 : ℚ) < 2)).1 hlt
    omega
  rcases hlow with rfl | hlow
  · omega
  · have hlt : (2 : ℚ) ^ (e + 52) < 2 ^ (t + 53) := lt_of_le_of_lt hlow hthigh
    have hexp := (zpow_lt_zpow_iff_right₀ (by norm_num : (1 : ℚ) < 2)).1 hlt
    omega

/-- Scaling by a power of two rounds to the nearest multiple of it. -/
theorem roundScaled_eq {m : Nat} {e : Int} (hden : 0 < den) (h : RoundsTo (num / den / 2 ^ e) m) :
    roundScaled num den e = m := by
  rw [← scaled_eq] at h
  exact roundDiv_eq (Nat.mul_pos hden (powNum_pos Nat.two_pos e)) h

/-! ## The interval of a number -/

/-- How far the interval of a number reaches below it, in units of its exponent. -/
def reach (x : Double) : ℚ :=
  if x.fraction = 0 ∧ 1 < x.exponentField then 1 / 4 else 1 / 2

/-- A rational number lies in the interval of a finite number, signs aside. -/
structure Near (x : Double) (r : ℚ) : Prop where
  low : (x.significand - x.reach) * 2 ^ x.exponent ≤ r
  high : r ≤ (x.significand + 1 / 2) * 2 ^ x.exponent
  ends : x.significand % 2 = 0 ∨
    ((x.significand - x.reach) * 2 ^ x.exponent < r ∧
      r < (x.significand + 1 / 2) * 2 ^ x.exponent)

/-- The interval reaches down by half a unit at most. -/
theorem reach_le (x : Double) : x.reach ≤ 1 / 2 := by
  unfold reach
  split <;> norm_num

/-- What is near a number has nearly its significand. -/
theorem quotient_parts {r : ℚ} (h : Near x r) :
    (x.significand - x.reach) ≤ r / 2 ^ x.exponent ∧ r / 2 ^ x.exponent ≤ x.significand + 1 / 2 :=
  ⟨(le_div_iff₀ (two_zpow_pos _)).2 h.low, (div_le_iff₀ (two_zpow_pos _)).2 h.high⟩

/-- At the exponent of the number, what is near it is rounded to its significand. -/
theorem roundsTo_significand {r : ℚ} (h : Near x r) :
    RoundsTo (r / 2 ^ x.exponent) x.significand := by
  rcases quotient_parts h with ⟨hlow, hhigh⟩
  have hreach := reach_le x
  refine ⟨by linarith, hhigh, ?_⟩
  rcases h.ends with heven | ⟨hl, hh⟩
  · exact .inl heven
  · have hl := (lt_div_iff₀ (two_zpow_pos _)).2 hl
    have hh := (div_lt_iff₀ (two_zpow_pos _)).2 hh
    exact .inr ⟨by linarith, hh⟩

/-- What is near a number is below the next power of two. -/
theorem near_lt {r : ℚ} (h : Near x r) : r < 2 ^ (x.exponent + 53) := by
  have hm : (x.significand : ℚ) + 1 ≤ 2 ^ 53 := by exact_mod_cast significand_lt x
  calc
    r ≤ (x.significand + 1 / 2) * 2 ^ x.exponent := h.high
    _ < 2 ^ 53 * 2 ^ x.exponent := mul_lt_mul_of_pos_right (by linarith) (two_zpow_pos _)
    _ = 2 ^ (x.exponent + 53) := by
      rw [zpow_add₀ (by norm_num), mul_comm]
      norm_num

/-- What is near a number, but below the power of two at its exponent, is near that power of two. -/
theorem power_of_near {r : ℚ} (h : Near x r) (hexponent : x.exponent ≠ -1074)
    (hlt : r < 2 ^ (x.exponent + 52)) : x.significand = 2 ^ 52 ∧ x.reach = 1 / 4 := by
  have hfield : x.exponentField ≠ 0 ∧ 1 < x.exponentField := by
    unfold exponent at hexponent
    split at hexponent
    · exact absurd rfl hexponent
    · omega
  have hsignificand : x.significand = x.fraction + 2 ^ 52 := by
    rw [significand, if_neg hfield.1]
    rfl
  have hquotient : r / 2 ^ x.exponent < 2 ^ 52 := by
    rw [div_lt_iff₀ (two_zpow_pos _)]
    have hpow : (2 : ℚ) ^ (x.exponent + 52) = 2 ^ 52 * 2 ^ x.exponent := by
      rw [zpow_add₀ (by norm_num), mul_comm]
      norm_num
    rw [← hpow]
    exact hlt
  -- a larger significand would keep the whole interval above that power
  have hfraction : x.fraction = 0 := by
    by_contra hne
    have hge : (2 : ℚ) ^ 52 + 1 ≤ x.significand := by
      rw [hsignificand]
      exact_mod_cast (by omega : 2 ^ 52 + 1 ≤ x.fraction + 2 ^ 52)
    have hlow := (quotient_parts h).1
    have hreach := reach_le x
    linarith
  refine ⟨by omega, ?_⟩
  rw [reach, if_pos ⟨hfraction, hfield.2⟩]

/-- A quotient near a finite number is rounded to that number. -/
theorem ofRatio_of_near (hx : x.isFinite = true) (hnum : 0 < num) (hden : 0 < den)
    (h : Near x (num / den)) : ofRatio x.negative num den = x := by
  have hmagnitude : (ratioExponent num den + 1074).toNat * 0x10000000000000 +
      roundScaled num den (ratioExponent num den) = x.magnitude := by
    have hge := exponent_ge x
    by_cases hsame : x.exponent = -1074 ∨ (2 : ℚ) ^ (x.exponent + 52) ≤ num / den
    · have hexponent := ratioExponent_eq hnum hden hge (near_lt h) hsame
      rw [hexponent, roundScaled_eq hden (roundsTo_significand h), magnitude_eq]
    · -- a quotient just below a power of two is rounded at the exponent below
      have hnot : x.exponent ≠ -1074 ∧ (num / den : ℚ) < 2 ^ (x.exponent + 52) := by
        rw [not_or, not_le] at hsame
        exact hsame
      rcases power_of_near h hnot.1 hnot.2 with ⟨hsignificand, hreach⟩
      have hpow : (2 : ℚ) ^ x.exponent = 2 * 2 ^ (x.exponent - 1) := by
        rw [zpow_sub_one₀ (by norm_num)]
        ring
      have hlow : (2 ^ 53 - 1 / 2) * (2 : ℚ) ^ (x.exponent - 1) ≤ num / den := by
        have hle := h.low
        rw [hsignificand, hreach, hpow] at hle
        push_cast at hle
        linarith
      have hhigh : (num / den : ℚ) < 2 ^ 53 * 2 ^ (x.exponent - 1) := by
        have hexp : (2 : ℚ) ^ (x.exponent + 52) = 2 ^ 53 * 2 ^ (x.exponent - 1) := by
          rw [zpow_add₀ (by norm_num), hpow]
          norm_num
          ring
        rw [← hexp]
        exact hnot.2
      have hexponent : ratioExponent num den = x.exponent - 1 := by
        refine ratioExponent_eq hnum hden (by omega) ?_ (.inr ?_)
        · rw [zpow_add₀ (by norm_num), mul_comm]
          exact_mod_cast hhigh
        · rw [zpow_add₀ (by norm_num), mul_comm]
          have hpos := two_zpow_pos (x.exponent - 1)
          norm_num at hlow ⊢
          linarith
      have hrounds : RoundsTo (num / den / 2 ^ (x.exponent - 1)) (2 ^ 53) := by
        refine ⟨?_, ?_, .inl (by norm_num)⟩
        · rw [le_div_iff₀ (two_zpow_pos _)]
          exact_mod_cast hlow
        · rw [div_le_iff₀ (two_zpow_pos _)]
          have hpos := two_zpow_pos (x.exponent - 1)
          push_cast
          linarith
      rw [hexponent, roundScaled_eq hden hrounds, magnitude_eq, hsignificand]
      omega
  have hfinite := magnitude_lt_of_isFinite hx
  -- the exponent and the significand found make up the magnitude, which does not overflow
  have hnonzero : ¬(num = 0 ∨ den = 0) := by omega
  simp only [ofRatio, if_neg hnonzero, hmagnitude]
  rw [if_neg (by omega)]
  exact ofMagnitude_parts x

/-! ## Rounding a decimal -/

/-- What is near a finite number is within the range of the format. -/
theorem near_bounds {r : ℚ} (hfinite : x.isFinite = true) (hx : 0 < x.significand) (h : Near x r) :
    (2 : ℚ) ^ (-1075 : Int) ≤ r ∧ r < 2 ^ (1024 : Int) := by
  have hm : (1 : ℚ) ≤ x.significand := by exact_mod_cast hx
  have hreach := reach_le x
  -- the smallest number is a half unit above nothing, the largest has 53 digits at its exponent
  constructor
  · calc
      (2 : ℚ) ^ (-1075 : Int) = 1 / 2 * 2 ^ (-1074 : Int) := by
        rw [one_div, ← zpow_neg_one, ← zpow_add₀ (by norm_num)]
        rfl
      _ ≤ 1 / 2 * 2 ^ x.exponent := by
        have hpow : (2 : ℚ) ^ (-1074 : Int) ≤ 2 ^ x.exponent :=
          zpow_le_zpow_right₀ (by norm_num) (exponent_ge x)
        exact mul_le_mul_of_nonneg_left hpow (by norm_num)
      _ ≤ (x.significand - x.reach) * 2 ^ x.exponent :=
        mul_le_mul_of_nonneg_right (by linarith) (two_zpow_pos _).le
      _ ≤ r := h.low
  · have hexp : x.exponent + 53 ≤ 1024 := by
      have hle := exponent_le hfinite
      omega
    exact (near_lt h).trans_le (zpow_le_zpow_right₀ (by norm_num) hexp)

/-- Ten is more than three doublings. -/
theorem two_zpow_le_ten_zpow {e : Int} (h : 0 ≤ e) : (2 : ℚ) ^ (3 * e) ≤ 10 ^ e := by
  obtain ⟨j, rfl⟩ := Int.eq_ofNat_of_zero_le h
  rw [zpow_mul, zpow_natCast, zpow_natCast]
  exact pow_le_pow_left₀ (by positivity) (by norm_num) j

/-- A decimal near a finite number is rounded to it. -/
theorem ofScientific_of_near {digits : Nat} {exponent : Int} (hfinite : x.isFinite = true)
    (hx : 0 < x.significand) (hdigits : 0 < digits) (h : Near x (digits * 10 ^ exponent)) :
    ofScientific x.negative digits exponent = x := by
  rcases near_bounds hfinite hx h with ⟨hlow, hhigh⟩
  have hone : (1 : ℚ) ≤ digits := by exact_mod_cast hdigits
  -- neither of the two shortcuts is taken for a decimal in range
  have hlarge : ¬exponent > 400 := by
    intro hgt
    have hpow : (2 : ℚ) ^ (1024 : Int) ≤ 10 ^ exponent := by
      calc
        (2 : ℚ) ^ (1024 : Int) ≤ 2 ^ (3 * exponent) := zpow_le_zpow_right₀ (by norm_num) (by omega)
        _ ≤ 10 ^ exponent := two_zpow_le_ten_zpow (by omega)
    have hmul : (10 : ℚ) ^ exponent ≤ digits * 10 ^ exponent :=
      le_mul_of_one_le_left (ten_zpow_pos _).le hone
    linarith
  have hsmall : ¬(exponent < -400 ∧ (Nat.log2 digits : Int) < -3 * exponent - 1200) := by
    rintro ⟨hlt, hsize⟩
    have hcount : (digits : ℚ) < 2 ^ ((Nat.log2 digits : Int) + 1) := by
      exact_mod_cast Nat.lt_log2_self
    have hten : (10 : ℚ) ^ exponent ≤ 2 ^ (3 * exponent) := by
      have hinv := inv_anti₀ (two_zpow_pos _) (two_zpow_le_ten_zpow (e := -exponent) (by omega))
      rw [← zpow_neg, ← zpow_neg, neg_neg, mul_neg, neg_neg] at hinv
      exact hinv
    have hless : (digits * 10 ^ exponent : ℚ) < 2 ^ (-1075 : Int) := by
      calc
        (digits * 10 ^ exponent : ℚ) ≤ digits * 2 ^ (3 * exponent) :=
          mul_le_mul_of_nonneg_left hten (by linarith)
        _ < 2 ^ ((Nat.log2 digits : Int) + 1) * 2 ^ (3 * exponent) :=
          mul_lt_mul_of_pos_right hcount (two_zpow_pos _)
        _ = 2 ^ ((Nat.log2 digits : Int) + 1 + 3 * exponent) :=
          (zpow_add₀ (by norm_num) _ _).symm
        _ ≤ 2 ^ (-1075 : Int) := zpow_le_zpow_right₀ (by norm_num) (by omega)
    linarith
  have hdigits0 : digits ≠ 0 := hdigits.ne'
  simp only [ofScientific, if_neg hdigits0, if_neg hlarge, if_neg hsmall]
  apply ofRatio_of_near hfinite (Nat.mul_pos hdigits (powNum_pos (by norm_num) exponent))
    (powDen_pos (by norm_num) exponent)
  -- what is left is the quotient that the powers of ten make
  have hpow := powNum_div_powDen 10 exponent
  rw [Nat.cast_ofNat] at hpow
  rw [Nat.cast_mul, mul_div_assoc, hpow]
  exact h

/-! ## What is made is a number -/

/-- Whether a number is none of the NaNs that no text stands for. -/
def plain (x : Double) : Bool :=
  !x.isNaN || x == nan

/-- A magnitude is kept with any sign. -/
theorem magnitude_ofMagnitude (negative : Bool) {m : Nat} (h : m < 2 ^ 63) :
    (ofMagnitude negative m).magnitude = m := by
  cases negative <;> simp [ofMagnitude, magnitude] <;> omega

/-- Of the NaNs a magnitude up to infinity is none. -/
theorem plain_ofMagnitude (negative : Bool) {m : Nat} (h : m ≤ 0x7ff * 2 ^ 52) :
    (ofMagnitude negative m).plain = true := by
  -- infinity is the largest magnitude that is not a NaN
  have hnumber : (ofMagnitude negative m).isNaN = false := by
    have hmagnitude := magnitude_ofMagnitude negative (m := m) (by omega)
    rw [isNaN, exponentField, fraction, hmagnitude, Bool.and_eq_false_iff]
    simp only [decide_eq_false_iff_not]
    omega
  rw [plain, hnumber]
  rfl

theorem plain_ofRatio (negative : Bool) (num den : Nat) :
    (ofRatio negative num den).plain = true := by
  unfold ofRatio
  split
  · exact plain_ofMagnitude negative (by norm_num)
  · dsimp only
    split
    · exact plain_ofMagnitude negative le_rfl
    · exact plain_ofMagnitude negative (by omega)

theorem plain_ofScientific (negative : Bool) (digits : Nat) (exponent : Int) :
    (ofScientific negative digits exponent).plain = true := by
  simp only [ofScientific]
  split
  · exact plain_ofMagnitude negative (by norm_num)
  split
  · exact plain_ofMagnitude negative le_rfl
  split
  · exact plain_ofMagnitude negative (by norm_num)
  · exact plain_ofRatio _ _ _

end Parley.Double
