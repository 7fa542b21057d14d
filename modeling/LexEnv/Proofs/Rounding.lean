import LexEnv.Number.Binary64
import Mathlib.Algebra.Order.Field.Power
import Mathlib.Data.Rat.Cast.Order
import Mathlib.Tactic.FieldSimp
import Mathlib.Tactic.Linarith
import Mathlib.Tactic.Positivity
import Mathlib.Tactic.Ring

/-!
# Rounding that changes nothing

Rounding is a matter of quotients that are no numbers of the format. A quotient that is one
(`Representable`) is not changed, whatever numerator and denominator it is given by
(`roundRatio_exact`). So the integers of at most 53 bits are numbers (`ofInt_exact`), and a quotient
of numbers is exact as soon as it is a number itself (`div_exact`). Comparing with an integer is
always exact (`exceeds_iff`).
-/

namespace LexEnv.Number.Binary64

/-! ## Exact values -/

/-- A number is finite and its exact value is a given one. -/
def HasValue (x : Binary64) (q : ℚ) : Prop := ∃ d, x.toDyadic? = some d ∧ d.toRat = q

/-- A magnitude that a significand of at most 53 bits has with an exponent of the format. -/
def Representable (q : ℚ) : Prop :=
  ∃ (m : ℕ) (e : ℤ), m < 2 ^ 53 ∧ lowestExponent ≤ e ∧ e ≤ highestExponent ∧ q = m * 2 ^ e

/-- A sign as a factor. -/
def factor (negative : Bool) : ℚ := if negative then -1 else 1

theorem abs_factor (negative : Bool) : |factor negative| = 1 := by
  cases negative <;> simp [factor]

variable {x y : Binary64} {p q : ℚ}

theorem hasValue_finite (negative : Bool) (m : ℕ) (e : ℤ) :
    (finite negative m e).HasValue (factor negative * (m * 2 ^ e)) := by
  refine ⟨_, rfl, ?_⟩
  rw [Dyadic.toRat_ofIntWithPrec_eq_mul_two_pow, neg_neg]
  cases negative <;> simp [factor]

theorem HasValue.unique (hp : x.HasValue p) (hq : x.HasValue q) : p = q := by
  obtain ⟨d, found, rfl⟩ := hp
  obtain ⟨d', found', rfl⟩ := hq
  rw [found] at found'
  cases found'
  rfl

/-- What has a value is finite. -/
theorem HasValue.exists_finite (hq : x.HasValue q) :
    ∃ negative m e, x = finite negative m e ∧ q = factor negative * (m * 2 ^ e) := by
  cases x with
  | finite negative m e => exact ⟨negative, m, e, rfl, hq.unique (hasValue_finite negative m e)⟩
  | infinite negative =>
    obtain ⟨d, found, -⟩ := hq
    cases found
  | nan =>
    obtain ⟨d, found, -⟩ := hq
    cases found

theorem HasValue.isInfinite_eq_false (hq : x.HasValue q) : x.isInfinite = false := by
  obtain ⟨negative, m, e, rfl, -⟩ := hq.exists_finite
  rfl

theorem hasValue_zero (negative : Bool) : (zero negative).HasValue 0 := by
  have value := hasValue_finite negative 0 lowestExponent
  rwa [Nat.cast_zero, zero_mul, mul_zero] at value

theorem representable_natCast {n : ℕ} (small : n < 2 ^ 53) : Representable n :=
  ⟨n, 0, small, by decide, by decide, by simp⟩

/-! ## Powers of two

A power is written with two natural exponents, of which one is zero. -/

theorem two_zpow (e : ℤ) : (2 : ℚ) ^ e = 2 ^ e.toNat / 2 ^ (-e).toNat := by
  rcases le_total 0 e with pos | neg
  · obtain ⟨n, rfl⟩ := Int.eq_ofNat_of_zero_le pos
    simp
  · obtain ⟨n, hn⟩ := Int.eq_ofNat_of_zero_le (Int.neg_nonneg.mpr neg)
    obtain rfl : e = -n := by omega
    simp

theorem two_zpow_pos (e : ℤ) : (0 : ℚ) < 2 ^ e := zpow_pos two_pos e

/-- The power of two next to a quotient. -/
theorem two_zpow_le_iff {num den : ℕ} (pos : 0 < den) (e : ℤ) :
    (2 : ℚ) ^ e ≤ num / den ↔ den * Nat.pow 2 e.toNat ≤ num * Nat.pow 2 (-e).toNat := by
  have hd : (0 : ℚ) < den := Nat.cast_pos.mpr pos
  rw [two_zpow, div_le_div_iff₀ (by positivity) hd, mul_comm, Nat.pow_eq, Nat.pow_eq]
  exact_mod_cast Iff.rfl

/-- The binary logarithm of a quotient is found between the two next to the difference of those of
its parts. -/
theorem floorLog2_spec {num den : ℕ} (hn : 0 < num) (hd : 0 < den) :
    (2 : ℚ) ^ floorLog2 num den ≤ num / den ∧ (num / den : ℚ) < 2 ^ (floorLog2 num den + 1) := by
  have hd' : (0 : ℚ) < den := Nat.cast_pos.mpr hd
  have two : (2 : ℚ) ≠ 0 := two_ne_zero
  have numLow : (2 : ℚ) ^ (num.log2 : ℤ) ≤ num := by
    exact_mod_cast Nat.log2_self_le hn.ne'
  have numHigh : (num : ℚ) < 2 ^ (num.log2 : ℤ) * 2 := by
    have := Nat.lt_log2_self (n := num)
    rw [pow_succ] at this
    exact_mod_cast this
  have denLow : (2 : ℚ) ^ (den.log2 : ℤ) ≤ den := by
    exact_mod_cast Nat.log2_self_le hd.ne'
  have denHigh : (den : ℚ) < 2 ^ (den.log2 : ℤ) * 2 := by
    have := Nat.lt_log2_self (n := den)
    rw [pow_succ] at this
    exact_mod_cast this
  have ratio : (2 : ℚ) ^ ((num.log2 : ℤ) - den.log2) * 2 ^ (den.log2 : ℤ) = 2 ^ (num.log2 : ℤ) := by
    rw [← zpow_add₀ two, sub_add_cancel]
  have pos := two_zpow_pos ((num.log2 : ℤ) - den.log2)
  unfold floorLog2
  simp only [← two_zpow_le_iff hd]
  split
  · next below =>
    refine ⟨below, ?_⟩
    rw [div_lt_iff₀ hd', zpow_add_one₀ two]
    nlinarith
  · next above =>
    rw [sub_add_cancel]
    refine ⟨?_, not_le.mp above⟩
    rw [le_div_iff₀ hd', zpow_sub_one₀ two]
    nlinarith

/-! ## Rounding -/

/-- A multiple is not rounded. -/
theorem roundHalfEven_mul (m : ℕ) {den : ℕ} (pos : 0 < den) : roundHalfEven (m * den) den = m := by
  unfold roundHalfEven
  rw [Nat.mul_div_cancel m pos, Nat.mul_mod_left]
  simp [pos.ne]

/-- The exponent at which a quotient is rounded. -/
def place (num den : ℕ) : ℤ := max lowestExponent (floorLog2 num den - 52)

variable {num den : ℕ}

/-- A number of the format is a multiple of the unit at which it would be rounded. -/
theorem Representable.exists_units (fits : Representable (num / den)) (hn : 0 < num)
    (hd : 0 < den) : place num den ≤ highestExponent ∧
      ∃ n : ℕ, (num / den : ℚ) = n * 2 ^ place num den := by
  obtain ⟨m, e, small, low, high, value⟩ := fits
  have floor := (floorLog2_spec hn hd).1
  have two : (2 : ℚ) ≠ 0 := two_ne_zero
  -- The logarithm of the quotient is less than 53 above any exponent that it can be written with.
  have below : place num den ≤ e := by
    have less : (2 : ℚ) ^ floorLog2 num den < 2 ^ (e + 53) := by
      have : (m : ℚ) < 2 ^ (53 : ℤ) := by exact_mod_cast small
      rw [zpow_add₀ two]
      nlinarith [two_zpow_pos e]
    have := (zpow_lt_zpow_iff_right₀ one_lt_two).mp less
    rw [place]
    omega
  obtain ⟨n, hn⟩ := Int.eq_ofNat_of_zero_le (sub_nonneg.mpr below)
  refine ⟨below.trans high, m * 2 ^ n, ?_⟩
  obtain rfl : e = n + place num den := by omega
  rw [value, zpow_add₀ two, zpow_natCast]
  push_cast
  ring

/-- A multiple of the unit at which it would be rounded is not rounded. -/
theorem roundRatio_of_units {n : ℕ} (hn : 0 < num) (hd : 0 < den)
    (high : place num den ≤ highestExponent) (units : (num / den : ℚ) = n * 2 ^ place num den)
    (negative : Bool) : roundRatio negative num den = finite negative n (place num den) := by
  have fitting : n < 2 ^ 53 := by
    have ceil : (n : ℚ) * 2 ^ place num den < 2 ^ (53 : ℤ) * 2 ^ place num den := by
      rw [← units, ← zpow_add₀ two_ne_zero]
      refine (floorLog2_spec hn hd).2.trans_le (zpow_le_zpow_right₀ one_le_two ?_)
      rw [place]
      omega
    have := lt_of_mul_lt_mul_right ceil (two_zpow_pos _).le
    exact_mod_cast this
  have multiple : num * Nat.pow 2 (-place num den).toNat =
      n * (den * Nat.pow 2 (place num den).toNat) := by
    have hd' : (den : ℚ) ≠ 0 := Nat.cast_ne_zero.mpr hd.ne'
    rw [two_zpow, div_eq_iff hd'] at units
    have : (num : ℚ) * 2 ^ (-place num den).toNat = n * (den * 2 ^ (place num den).toNat) := by
      rw [units]
      field_simp
    exact_mod_cast this
  have unit : 0 < den * Nat.pow 2 (place num den).toNat := Nat.mul_pos hd (Nat.pow_pos two_pos)
  have unshifted : ¬ n = Nat.pow 2 53 := fitting.ne
  rw [roundRatio, if_neg hn.ne']
  show ofSignificand negative (roundHalfEven (num * Nat.pow 2 (-place num den).toNat)
    (den * Nat.pow 2 (place num den).toNat)) (place num den) = _
  rw [multiple, roundHalfEven_mul n unit, ofSignificand, if_neg unshifted]
  exact if_neg (not_lt.mpr high)

/-- A quotient that is a number of the format is not rounded. -/
theorem roundRatio_exact (hd : 0 < den) (fits : Representable (num / den)) (negative : Bool) :
    (roundRatio negative num den).HasValue (factor negative * (num / den)) := by
  rcases Nat.eq_zero_or_pos num with rfl | hn
  · rw [Nat.cast_zero, zero_div, mul_zero]
    exact hasValue_zero negative
  · obtain ⟨high, n, units⟩ := fits.exists_units hn hd
    rw [roundRatio_of_units hn hd high units, units]
    exact hasValue_finite negative n _

/-- The integers of at most 53 bits are numbers of the format. -/
theorem ofInt_exact {n : ℤ} (small : n.natAbs < 2 ^ 53) : (ofInt n).HasValue n := by
  have fits : Representable ((n.natAbs : ℚ) / (1 : ℕ)) := by
    rw [Nat.cast_one, div_one]
    exact representable_natCast small
  have exact := roundRatio_exact one_pos fits (decide (n < 0))
  have sign : factor (decide (n < 0)) * ((n.natAbs : ℚ) / (1 : ℕ)) = n := by
    rw [Nat.cast_one, div_one, Nat.cast_natAbs]
    by_cases neg : n < 0
    · simp [factor, neg, abs_of_neg neg]
    · simp [factor, neg, abs_of_nonneg (not_lt.mp neg)]
  rwa [sign] at exact

/-- A quotient of numbers that is a number itself is not rounded. -/
theorem div_exact (hp : x.HasValue p) (hq : y.HasValue q) (ne : q ≠ 0)
    (fits : Representable |p / q|) : (x.div y).HasValue (p / q) := by
  obtain ⟨s, m, d, rfl, rfl⟩ := hp.exists_finite
  obtain ⟨t, n, e, rfl, rfl⟩ := hq.exists_finite
  have hn : n ≠ 0 := by
    rintro rfl
    simp at ne
  have two : (2 : ℚ) ≠ 0 := two_ne_zero
  have hn' : (n : ℚ) ≠ 0 := Nat.cast_ne_zero.mpr hn
  have magnitude : ((m * Nat.pow 2 (d - e).toNat : ℕ) : ℚ) / (n * Nat.pow 2 (e - d).toNat : ℕ) =
      m * 2 ^ d / (n * 2 ^ e) := by
    have shift := two_zpow (d - e)
    rw [neg_sub, zpow_sub₀ two] at shift
    simp only [Nat.pow_eq]
    push_cast
    rw [mul_div_mul_comm, mul_div_mul_comm, shift]
  have signs : factor s * (m * 2 ^ d) / (factor t * (n * 2 ^ e)) =
      factor (s != t) * (m * 2 ^ d / (n * 2 ^ e)) := by
    cases s <;> cases t <;> simp [factor, neg_div, div_neg]
  have positive : (0 : ℚ) ≤ m * 2 ^ d / (n * 2 ^ e) := by positivity
  have absolute : |factor (s != t) * (m * 2 ^ d / (n * 2 ^ e))| = m * 2 ^ d / (n * 2 ^ e) := by
    rw [abs_mul, abs_factor, one_mul, abs_of_nonneg positive]
  rw [signs] at fits ⊢
  rw [absolute, ← magnitude] at fits
  rw [← magnitude]
  show (if n = 0 then _ else roundRatio (s != t) _ _ : Binary64).HasValue _
  rw [if_neg hn]
  exact roundRatio_exact (Nat.mul_pos (Nat.pos_of_ne_zero hn) (Nat.pow_pos two_pos)) fits _

/-! ## Comparison -/

/-- A number is compared with an integer by its exact value. -/
theorem exceeds_iff (hq : x.HasValue q) (n : ℤ) : x.exceeds n = true ↔ (n : ℚ) < q := by
  obtain ⟨negative, m, e, rfl, rfl⟩ := hq.exists_finite
  have signed : factor negative * (m * 2 ^ e) =
      ((if negative then -(m : ℤ) else m : ℤ) : ℚ) * 2 ^ e := by
    cases negative <;> simp [factor]
  rw [exceeds, decide_eq_true_iff, signed, two_zpow, ← mul_div_assoc, lt_div_iff₀ (by positivity)]
  simp only [Nat.pow_eq]
  exact_mod_cast Iff.rfl

end LexEnv.Number.Binary64
