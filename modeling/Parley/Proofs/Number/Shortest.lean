import Parley.Number.Shortest
import Parley.Proofs.Number.Rounding

/-!
# Shortest decimals lie in the interval

The search for the shortest decimal of a positive finite number finds one, for the grid with
seventeen digits is finer than the interval of the number, and what it finds lies in that interval.

* `contains_iff`: the test of the search is `Near`;
* `nearest?_isSome`: a fine grid has a point in the interval;
* `Interval.point_le`: the search starts at a grid that is not too coarse;
* `shortest_near`: the shortest decimal of a number is near it.
-/

namespace Parley.Double

open Number (powNum powDen)

variable {x : Double}

/-! ## The interval in rational numbers -/

theorem scale_pos (x : Double) : 0 < x.interval.scale :=
  powDen_pos Nat.two_pos _

theorem quarter_unit (x : Double) : (2 : ℚ) ^ (x.exponent - 2) = 2 ^ x.exponent / 4 := by
  rw [zpow_sub₀ (by norm_num)]
  norm_num

/-- The middle of the interval is the number. -/
theorem interval_value (x : Double) :
    (x.interval.value : ℚ) / x.interval.scale = x.significand * 2 ^ x.exponent := by
  have hunit := powNum_div_powDen 2 (x.exponent - 2)
  rw [Nat.cast_ofNat, quarter_unit] at hunit
  simp only [interval]
  push_cast at hunit ⊢
  rw [mul_div_assoc, hunit]
  ring

/-- Its upper end is half a unit above the number. -/
theorem interval_high (x : Double) :
    (x.interval.high : ℚ) / x.interval.scale = (x.significand + 1 / 2) * 2 ^ x.exponent := by
  have hunit := powNum_div_powDen 2 (x.exponent - 2)
  rw [Nat.cast_ofNat, quarter_unit] at hunit
  simp only [interval]
  push_cast at hunit ⊢
  rw [mul_div_assoc, hunit]
  ring

/-- Its lower end is half a unit below the number, or a quarter of one below a power of two. -/
theorem interval_low (hx : 0 < x.significand) :
    (x.interval.low : ℚ) / x.interval.scale = (x.significand - x.reach) * 2 ^ x.exponent := by
  have hunit := powNum_div_powDen 2 (x.exponent - 2)
  rw [Nat.cast_ofNat, quarter_unit] at hunit
  have hbelow : ((4 * x.significand -
      (if x.fraction = 0 ∧ 1 < x.exponentField then 1 else 2) : Nat) : ℚ) =
        4 * (x.significand - x.reach) := by
    rw [reach]
    -- the lower end stays a natural number, as the significand is not zero
    split
    · rw [Nat.cast_sub (by omega)]
      push_cast
      ring
    · rw [Nat.cast_sub (by omega)]
      push_cast
      ring
  simp only [interval]
  rw [Nat.cast_mul, hbelow, mul_div_assoc, hunit]
  ring

/-- The ends belong to it exactly if the significand is even. -/
theorem interval_closed (x : Double) : x.interval.closed = decide (x.significand % 2 = 0) := rfl

/-- The test of the search says whether a decimal is near the number. -/
theorem contains_iff (hx : 0 < x.significand) (d : Nat) (k : Int) :
    x.interval.contains d k = true ↔ Near x (d * 10 ^ k) := by
  have hten := powNum_div_powDen 10 k
  have hdown : (0 : ℚ) < powDen 10 k := by exact_mod_cast powDen_pos (by norm_num) k
  simp only [Interval.contains]
  generalize powNum 10 k = up at hten ⊢
  generalize powDen 10 k = down at hten hdown ⊢
  -- both sides of every comparison, multiplied by what makes them integers
  have hscale : (0 : ℚ) < x.interval.scale := by exact_mod_cast scale_pos x
  have hpos : (0 : ℚ) < x.interval.scale * down := mul_pos hscale hdown
  have hpoint : (d * 10 ^ k : ℚ) * (x.interval.scale * down) =
      (d * x.interval.scale * up : Nat) := by
    rw [← Nat.cast_ofNat, ← hten]
    push_cast
    field_simp
  have hlow : ((x.significand - x.reach) * 2 ^ x.exponent : ℚ) * (x.interval.scale * down) =
      (x.interval.low * down : Nat) := by
    rw [← interval_low hx]
    push_cast
    field_simp
  have hhigh : ((x.significand + 1 / 2) * 2 ^ x.exponent : ℚ) * (x.interval.scale * down) =
      (x.interval.high * down : Nat) := by
    rw [← interval_high x]
    push_cast
    field_simp
  have hle : x.interval.low * down ≤ d * x.interval.scale * up ↔
      ((x.significand - x.reach) * 2 ^ x.exponent : ℚ) ≤ d * 10 ^ k := by
    rw [← mul_le_mul_iff_of_pos_right hpos, hlow, hpoint, Nat.cast_le]
  have hge : d * x.interval.scale * up ≤ x.interval.high * down ↔
      (d * 10 ^ k : ℚ) ≤ (x.significand + 1 / 2) * 2 ^ x.exponent := by
    rw [← mul_le_mul_iff_of_pos_right hpos, hhigh, hpoint, Nat.cast_le]
  have hlt : x.interval.low * down < d * x.interval.scale * up ↔
      ((x.significand - x.reach) * 2 ^ x.exponent : ℚ) < d * 10 ^ k := by
    rw [← mul_lt_mul_iff_of_pos_right hpos, hlow, hpoint, Nat.cast_lt]
  have hgt : d * x.interval.scale * up < x.interval.high * down ↔
      (d * 10 ^ k : ℚ) < (x.significand + 1 / 2) * 2 ^ x.exponent := by
    rw [← mul_lt_mul_iff_of_pos_right hpos, hhigh, hpoint, Nat.cast_lt]
  rw [interval_closed]
  -- an even significand keeps its ends, an odd one gives them up
  by_cases heven : x.significand % 2 = 0
  · simp only [heven, decide_true, if_true, Bool.and_eq_true, decide_eq_true_eq, hle, hge]
    constructor
    · rintro ⟨hl, hh⟩
      exact ⟨hl, hh, .inl heven⟩
    · intro h
      exact ⟨h.low, h.high⟩
  · simp only [heven, decide_false, Bool.false_eq_true, if_false, Bool.and_eq_true,
      decide_eq_true_eq, hlt, hgt]
    constructor
    · rintro ⟨hl, hh⟩
      exact ⟨hl.le, hh.le, .inr ⟨hl, hh⟩⟩
    · intro h
      rcases h.ends with hends | hends
      · exact absurd hends heven
      · exact hends

/-! ## A fine grid has a point in the interval -/

/-- One of the two integers next to a quotient is at most a half away. -/
theorem exists_nearest (num : Nat) {den : Nat} (hden : 0 < den) :
    ∃ c, (c = num / den ∨ c = num / den + 1) ∧
      (num / den : ℚ) - 1 / 2 ≤ c ∧ (c : ℚ) ≤ num / den + 1 / 2 := by
  have hpos : (0 : ℚ) < den := by exact_mod_cast hden
  have hparts : num / den * den + num % den = num := Nat.div_add_mod' num den
  have hrest : num % den < den := Nat.mod_lt _ hden
  generalize num / den = q at hparts ⊢
  generalize num % den = r at hparts hrest
  have hquotient : (num / den : ℚ) = q + r / den := by
    rw [← hparts]
    push_cast
    field_simp
  rw [hquotient]
  have hnonneg : (0 : ℚ) ≤ r / den := by positivity
  have hless : (r : ℚ) / den < 1 := by
    rw [div_lt_one hpos]
    exact_mod_cast hrest
  by_cases hhalf : (r : ℚ) / den ≤ 1 / 2
  · exact ⟨q, .inl rfl, by linarith, by linarith⟩
  · refine ⟨q + 1, .inr rfl, ?_, ?_⟩
    · push_cast
      linarith
    · push_cast
      linarith

/-- If the steps of a grid are smaller than the number and less than twice as wide as the narrower
side of its interval, then a point of the grid next to the number is near it. -/
theorem nearest?_isSome {k : Int} (hx : 0 < x.significand)
    (hfine : (10 : ℚ) ^ k / 2 < x.reach * 2 ^ x.exponent)
    (hsmall : (10 : ℚ) ^ k ≤ x.significand * 2 ^ x.exponent) :
    (x.interval.nearest? k).isSome = true := by
  have hten := powNum_div_powDen 10 k
  have hvalue := interval_value x
  have hscale := scale_pos x
  have hup : 0 < powNum 10 k := powNum_pos (by norm_num) k
  have hdown : 0 < powDen 10 k := powDen_pos (by norm_num) k
  simp only [Interval.nearest?]
  generalize powNum 10 k = up at hten hup ⊢
  generalize powDen 10 k = down at hten hdown ⊢
  have hunit : 0 < x.interval.scale * up := Nat.mul_pos hscale hup
  -- the number, counted in steps of the grid
  have hsteps : ((x.interval.value * down : Nat) : ℚ) / (x.interval.scale * up : Nat) * 10 ^ k =
      x.significand * 2 ^ x.exponent := by
    rw [← hvalue, ← Nat.cast_ofNat, ← hten]
    push_cast
    field_simp
  rcases exists_nearest (x.interval.value * down) hunit with ⟨c, hc, hbelow, habove⟩
  have hpos := ten_zpow_pos k
  have hlow := mul_le_mul_of_nonneg_right hbelow hpos.le
  have hhigh := mul_le_mul_of_nonneg_right habove hpos.le
  rw [sub_mul, hsteps] at hlow
  rw [add_mul, hsteps] at hhigh
  have hreach := mul_le_mul_of_nonneg_right (reach_le x) (two_zpow_pos x.exponent).le
  -- a half step does not leave the interval on either side
  have hnear : Near x (c * 10 ^ k) := by
    have hl : ((x.significand - x.reach) * 2 ^ x.exponent : ℚ) < c * 10 ^ k := by
      rw [sub_mul]
      linarith
    have hh : (c * 10 ^ k : ℚ) < (x.significand + 1 / 2) * 2 ^ x.exponent := by
      rw [add_mul]
      linarith
    exact ⟨hl.le, hh.le, .inr ⟨hl, hh⟩⟩
  -- the number is at least one step away from zero
  have hcount : 0 < c := by
    by_contra hzero
    have hc0 : c = 0 := by omega
    rw [hc0] at hlow
    push_cast at hlow
    linarith
  have htest : (decide (0 < c) && x.interval.contains c k) = true := by
    rw [(contains_iff hx c k).2 hnear, decide_eq_true hcount]
    rfl
  apply List.find?_isSome.2
  refine ⟨c, ?_, htest⟩
  split
  · rcases hc with rfl | rfl <;> simp
  · rcases hc with rfl | rfl <;> simp

/-- A decimal that is found in the interval is near the number. -/
theorem near_of_nearest? {d : Nat} {k : Int} (hx : 0 < x.significand)
    (h : x.interval.nearest? k = some d) : 0 < d ∧ Near x (d * 10 ^ k) := by
  simp only [Interval.nearest?] at h
  have htest := List.find?_some h
  rw [Bool.and_eq_true, decide_eq_true_eq] at htest
  exact ⟨htest.1, (contains_iff hx d k).1 htest.2⟩

/-! ## Where the search starts -/

/-- If `10 ^ t` and `2 ^ n` differ by less than a factor of ten, then so do, nearly, the powers with
exponents in the same proportion. -/
theorem ten_zpow_le_two_zpow {n t : Nat} (hn : n ≠ 0) (hbelow : 2 ^ n ≤ 10 ^ t)
    (habove : 10 ^ t ≤ 10 * 2 ^ n) {g l : Int} (hg : g * n ≤ l * t) (hl : l ≤ 2 * n) :
    (10 : ℚ) ^ (g - 2) ≤ 2 ^ l := by
  have hbelow : (2 : ℚ) ^ n ≤ 10 ^ t := by exact_mod_cast hbelow
  have habove : (10 : ℚ) ^ t ≤ 10 * 2 ^ n := by exact_mod_cast habove
  -- the inequality holds for the powers with exponent `n`
  have hpowers : ((10 : ℚ) ^ t) ^ l * 10 ^ (-2 * n : Int) ≤ ((2 : ℚ) ^ n) ^ l := by
    rcases Int.le_total 0 l with hnonneg | hneg
    · obtain ⟨j, rfl⟩ := Int.eq_ofNat_of_zero_le hnonneg
      have hpow : ((10 : ℚ) ^ t) ^ j ≤ (10 * 2 ^ n) ^ j := pow_le_pow_left₀ (by positivity) habove j
      have hten : (10 : ℚ) ^ (j : Int) * 10 ^ (-2 * n : Int) ≤ 1 := by
        rw [← zpow_add₀ (by norm_num)]
        exact zpow_le_one_of_nonpos₀ (by norm_num) (by omega)
      calc
        ((10 : ℚ) ^ t) ^ (j : Int) * 10 ^ (-2 * n : Int)
            ≤ (10 * 2 ^ n) ^ (j : Int) * 10 ^ (-2 * n : Int) := by
              rw [zpow_natCast, zpow_natCast]
              exact mul_le_mul_of_nonneg_right hpow (ten_zpow_pos _).le
        _ = (10 ^ (j : Int) * 10 ^ (-2 * n : Int)) * (2 ^ n) ^ (j : Int) := by
              rw [mul_zpow]
              ring
        _ ≤ 1 * (2 ^ n) ^ (j : Int) := mul_le_mul_of_nonneg_right hten (by positivity)
        _ = (2 ^ n) ^ (j : Int) := one_mul _
    · obtain ⟨j, rfl⟩ := Int.exists_eq_neg_ofNat hneg
      have hpow : ((2 : ℚ) ^ n) ^ j ≤ ((10 : ℚ) ^ t) ^ j :=
        pow_le_pow_left₀ (by positivity) hbelow j
      have hinv : (((10 : ℚ) ^ t) ^ j)⁻¹ ≤ (((2 : ℚ) ^ n) ^ j)⁻¹ := inv_anti₀ (by positivity) hpow
      have hten : (10 : ℚ) ^ (-2 * n : Int) ≤ 1 := zpow_le_one_of_nonpos₀ (by norm_num) (by omega)
      rw [zpow_neg, zpow_neg, zpow_natCast, zpow_natCast]
      calc
        (((10 : ℚ) ^ t) ^ j)⁻¹ * 10 ^ (-2 * n : Int)
            ≤ (((10 : ℚ) ^ t) ^ j)⁻¹ * 1 := mul_le_mul_of_nonneg_left hten (by positivity)
        _ = (((10 : ℚ) ^ t) ^ j)⁻¹ := mul_one _
        _ ≤ (((2 : ℚ) ^ n) ^ j)⁻¹ := hinv
  -- then `n`-th roots are taken on both sides
  have hexponents : ((10 : ℚ) ^ (g - 2)) ^ n ≤ ((2 : ℚ) ^ l) ^ n := by
    calc
      ((10 : ℚ) ^ (g - 2)) ^ n = 10 ^ ((g - 2) * n) := by rw [← zpow_natCast, ← zpow_mul]
      _ ≤ 10 ^ (t * l + -2 * n) := zpow_le_zpow_right₀ (by norm_num) (by linarith)
      _ = ((10 : ℚ) ^ t) ^ l * 10 ^ (-2 * n : Int) := by
        rw [zpow_add₀ (by norm_num), zpow_mul, zpow_natCast]
      _ ≤ ((2 : ℚ) ^ n) ^ l := hpowers
      _ = ((2 : ℚ) ^ l) ^ n := by
        rw [← zpow_natCast, ← zpow_natCast, ← zpow_mul, ← zpow_mul, mul_comm]
  exact (pow_le_pow_iff_left₀ (ten_zpow_pos _).le (two_zpow_pos _).le hn).1 hexponents

/-- The guess of the search for the decimal point is not more than one too high. -/
theorem guess_le {l : Int} (hl : l ≤ 200000) :
    (10 : ℚ) ^ (l * 30103 / 100000 - 2) ≤ 2 ^ l := by
  -- the guess rests on how near `10 ^ 30103` is to `2 ^ 100000`
  have hbelow : 2 ^ 100000 ≤ 10 ^ 30103 := by decide +kernel
  have habove : 10 ^ 30103 ≤ 10 * 2 ^ 100000 := by decide +kernel
  have hguess : l * 30103 / 100000 * 100000 ≤ l * 30103 := Int.ediv_mul_le _ (by norm_num)
  exact ten_zpow_le_two_zpow (by norm_num) hbelow habove hguess (by omega)

/-- Comparing two products is comparing a quotient with a power of ten. -/
theorem reached_iff {value scale : Nat} (hscale : 0 < scale) (k : Int) :
    value * powDen 10 k < scale * powNum 10 k ↔ (value / scale : ℚ) < 10 ^ k := by
  have hten := powNum_div_powDen 10 k
  have hpos : (0 : ℚ) < scale := by exact_mod_cast hscale
  have hdown : (0 : ℚ) < powDen 10 k := by exact_mod_cast powDen_pos (by norm_num) k
  rw [Nat.cast_ofNat] at hten
  rw [← hten, div_lt_div_iff₀ hpos hdown, ← Nat.cast_mul, ← Nat.cast_mul, Nat.cast_lt,
    mul_comm scale]

/-- A place found by the search is behind one that has not been reached, or is the first. -/
theorem search_ge {P : Int → Prop} {reached : Int → Bool} {guess : Int} (hfirst : P (guess - 2))
    (hnot : ∀ k, reached k = false → P k) :
    P ((([guess - 1, guess, guess + 1, guess + 2].find? reached).getD (guess + 3)) - 1) := by
  -- the place before the first one reached is one of the guesses that failed
  cases h₁ : reached (guess - 1) with
  | true =>
    have hstep : guess - 1 - 1 = guess - 2 := by omega
    simpa [h₁, hstep] using hfirst
  | false =>
    cases h₂ : reached guess with
    | true => simpa [h₁, h₂] using hnot _ h₁
    | false =>
      cases h₃ : reached (guess + 1) with
      | true => simpa [h₁, h₂, h₃] using hnot _ h₂
      | false =>
        cases h₄ : reached (guess + 2) with
        | true =>
          have hstep : guess + 2 - 1 = guess + 1 := by omega
          simpa [h₁, h₂, h₃, h₄, hstep] using hnot _ h₃
        | false =>
          have hstep : guess + 3 - 1 = guess + 2 := by omega
          simpa [h₁, h₂, h₃, h₄, hstep] using hnot _ h₄

/-- The number is not below the power of ten before its decimal point. -/
theorem Interval.point_le {i : Interval} (hvalue : 0 < i.value) (hscale : 0 < i.scale)
    (hsize : (Nat.log2 i.value : Int) - Nat.log2 i.scale - 1 ≤ 200000) :
    (10 : ℚ) ^ (i.point - 1) ≤ i.value / i.scale := by
  have hbits := (log2_bounds hvalue hscale).1
  have hguess := (guess_le hsize).trans hbits.le
  simp only [Interval.point]
  generalize ((Nat.log2 i.value : Int) - Nat.log2 i.scale - 1) * 30103 / 100000 = guess at hguess ⊢
  -- a place that has not been reached bounds the number from below
  have hnot : ∀ k : Int, decide (i.value * powDen 10 k < i.scale * powNum 10 k) = false →
      (10 : ℚ) ^ k ≤ i.value / i.scale := by
    intro k hk
    by_contra hlt
    exact absurd ((reached_iff hscale k).2 (not_le.1 hlt)) (of_decide_eq_false hk)
  exact search_ge (P := fun k => (10 : ℚ) ^ k ≤ i.value / i.scale) hguess hnot

/-! ## The shortest decimal -/

/-- A finite number is below the overflow threshold. -/
theorem value_lt (h : x.isFinite = true) :
    (x.significand * 2 ^ x.exponent : ℚ) < 2 ^ (1024 : Int) := by
  have hm : (x.significand : ℚ) < 2 ^ 53 := by exact_mod_cast significand_lt x
  have he : (2 : ℚ) ^ x.exponent ≤ 2 ^ (971 : Int) :=
    zpow_le_zpow_right₀ (by norm_num) (exponent_le h)
  calc
    (x.significand * 2 ^ x.exponent : ℚ) < 2 ^ 53 * 2 ^ x.exponent :=
      mul_lt_mul_of_pos_right hm (two_zpow_pos _)
    _ ≤ 2 ^ 53 * 2 ^ (971 : Int) := mul_le_mul_of_nonneg_left he (by positivity)
    _ = 2 ^ (1024 : Int) := by
      rw [← zpow_natCast, ← zpow_add₀ (by norm_num)]
      rfl

/-- The guess of the point is not too large. -/
theorem point_le (hfinite : x.isFinite = true) (hx : 0 < x.significand) :
    (10 : ℚ) ^ (x.interval.point - 1) ≤ x.significand * 2 ^ x.exponent := by
  have hscale := scale_pos x
  have hscaleq : (0 : ℚ) < x.interval.scale := by exact_mod_cast hscale
  have hvalue : 0 < x.interval.value := by
    have hpos : (0 : ℚ) < x.interval.value / x.interval.scale := by
      rw [interval_value]
      exact mul_pos (by exact_mod_cast hx) (two_zpow_pos _)
    have hcast := (div_pos_iff_of_pos_right hscaleq).1 hpos
    exact_mod_cast hcast
  -- a finite number has too few binary digits for the guess to drift
  have hsize : (Nat.log2 x.interval.value : Int) - Nat.log2 x.interval.scale - 1 ≤ 200000 := by
    have hbits := (log2_bounds hvalue hscale).1
    rw [interval_value] at hbits
    have hexp := (zpow_lt_zpow_iff_right₀ (by norm_num : (1 : ℚ) < 2)).1
      (hbits.trans (value_lt hfinite))
    omega
  have hle := Interval.point_le hvalue hscale hsize
  rw [interval_value] at hle
  exact hle

/-- With seventeen digits the steps of the grid are less than twice as wide as either side of the
interval. -/
theorem seventeen_digits {k : Int}
    (h : (10 : ℚ) ^ (k + 16) ≤ x.significand * 2 ^ x.exponent) :
    (10 : ℚ) ^ k / 2 < x.reach * 2 ^ x.exponent := by
  have hm : (x.significand : ℚ) < 2 ^ 53 := by exact_mod_cast significand_lt x
  have hunit := two_zpow_pos x.exponent
  have hpow : (10 : ℚ) ^ (k + 16) = 10 ^ k * 10 ^ 16 := by
    rw [zpow_add₀ (by norm_num)]
    norm_num
  rw [hpow] at h
  -- the side below a power of two is half as wide as the others
  have hside : (x.significand : ℚ) < 2 * 10 ^ 16 * x.reach := by
    unfold reach
    split
    · rename_i hfield
      have hnonzero : x.exponentField ≠ 0 := by omega
      have hpower : x.significand = 2 ^ 52 := by
        rw [significand, if_neg hnonzero, hfield.1]
        rfl
      rw [hpower]
      norm_num
    · norm_num at hm ⊢
      linarith
  have hscaled : (x.significand * 2 ^ x.exponent : ℚ) < 2 * 10 ^ 16 * x.reach * 2 ^ x.exponent :=
    mul_lt_mul_of_pos_right hside hunit
  have hall : (10 : ℚ) ^ k * 10 ^ 16 < 2 * 10 ^ 16 * x.reach * 2 ^ x.exponent :=
    lt_of_le_of_lt h hscaled
  norm_num at hall ⊢
  linarith

/-- Dropping zeros divides by a power of ten. -/
theorem exists_dropZeros (fuel d : Nat) : ∃ j, d = dropZeros fuel d * 10 ^ j := by
  induction fuel generalizing d with
  | zero => exact ⟨0, by simp [dropZeros]⟩
  | succ fuel ih =>
    by_cases hzero : d ≠ 0 ∧ d % 10 = 0
    · obtain ⟨j, hj⟩ := ih (d / 10)
      refine ⟨j + 1, ?_⟩
      rw [dropZeros, if_pos hzero, pow_succ, ← mul_assoc, ← hj]
      omega
    · exact ⟨0, by simp [dropZeros, hzero]⟩

theorem digitCount_mul_ten {d : Nat} (h : 0 < d) (j : Nat) :
    digitCount (d * 10 ^ j) = digitCount d + j := by
  induction j with
  | zero => simp
  | succ j ih =>
    have hpos : 0 < d * 10 ^ j := Nat.mul_pos h (by positivity)
    have hdigits := Nat.toDigits_append_toDigits (b := 10) (d := 0) (by decide) hpos (by decide)
    have hnext : d * 10 ^ (j + 1) = 10 * (d * 10 ^ j) + 0 := by ring
    rw [hnext, digitCount, ← hdigits, List.length_append]
    rw [digitCount] at ih
    rw [ih]
    rfl

/-- The last grid has a point in the interval, so the search finds one. -/
theorem exists_onGrid (hfinite : x.isFinite = true) (hx : 0 < x.significand) :
    ∃ d k, x.grids.findSome? x.onGrid = some (d, k) ∧ 0 < d ∧ Near x (d * 10 ^ k) := by
  have hpoint := point_le hfinite hx
  have hexp : x.interval.point - 17 + 16 = x.interval.point - 1 := by omega
  have hfine : (10 : ℚ) ^ (x.interval.point - 17) / 2 < x.reach * 2 ^ x.exponent := by
    apply seventeen_digits
    rw [hexp]
    exact hpoint
  have hsmall : (10 : ℚ) ^ (x.interval.point - 17) ≤ x.significand * 2 ^ x.exponent :=
    (zpow_le_zpow_right₀ (by norm_num) (by omega)).trans hpoint
  -- the grids end with the one of seventeen digits
  have hlast : x.interval.point - 17 ∈ x.grids :=
    List.mem_map.2 ⟨16, by decide, by norm_num⟩
  have hsome : (x.grids.findSome? x.onGrid).isSome = true := by
    rw [List.findSome?_isSome_iff]
    refine ⟨x.interval.point - 17, hlast, ?_⟩
    simp only [onGrid, Option.isSome_map]
    exact nearest?_isSome hx hfine hsmall
  obtain ⟨⟨d, k⟩, hfound⟩ := Option.isSome_iff_exists.1 hsome
  obtain ⟨k', -, hgrid⟩ := List.exists_of_findSome?_eq_some hfound
  obtain ⟨d', hd, hpair⟩ := Option.map_eq_some_iff.1 hgrid
  cases hpair
  exact ⟨d, k, hfound, near_of_nearest? hx hd⟩

/-- The shortest decimal of a number is near it. -/
theorem shortest_near (hfinite : x.isFinite = true) (hzero : x.isZero = false) :
    ∃ d p, x.shortest = ⟨d, p⟩ ∧ 0 < d ∧ Near x (d * 10 ^ (p - digitCount d : Int)) := by
  obtain ⟨d, k, hfound, hpos, hnear⟩ := exists_onGrid hfinite (significand_pos hzero)
  have hshortest : x.shortest = ⟨dropZeros 20 d, k + digitCount d⟩ := by
    unfold shortest
    rw [hfound]
  obtain ⟨j, hj⟩ := exists_dropZeros 20 d
  generalize dropZeros 20 d = kept at hshortest hj
  have hkept : 0 < kept := by
    by_contra hne
    have hzero : kept = 0 := by omega
    rw [hzero, Nat.zero_mul] at hj
    omega
  have hcount : digitCount d = digitCount kept + j := by
    rw [← digitCount_mul_ten hkept j, ← hj]
  -- the zeros that are dropped move into the power of ten
  have hexp : (k + digitCount d - digitCount kept : Int) = j + k := by omega
  refine ⟨kept, k + digitCount d, hshortest, hkept, ?_⟩
  rw [hexp, zpow_add₀ (by norm_num), ← mul_assoc, zpow_natCast]
  rw [hj] at hnear
  push_cast at hnear
  exact hnear

end Parley.Double
