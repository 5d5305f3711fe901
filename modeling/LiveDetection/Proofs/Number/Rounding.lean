import LiveDetection.Number.Rounding
import Mathlib.Algebra.Order.Field.Power
import Mathlib.Algebra.Order.Ring.Abs
import Mathlib.Data.Rat.Cast.Order
import Mathlib.Tactic.FieldSimp
import Mathlib.Tactic.Linarith
import Mathlib.Tactic.NormNum
import Mathlib.Tactic.Positivity
import Mathlib.Tactic.Ring

/-!
# Rounding as a fact about rationals

Rounding depends on the rational value of a quotient alone: on its binade, which fixes the
exponent of the result, and on the integer nearest to the value in units of that exponent.
-/

namespace LiveDetection

/-- The value of a magnitude. -/
def Dyadic.value (d : Dyadic) : ℚ := d.mantissa * 2 ^ d.exponent

/-- A power as a quotient of powers with natural exponents. -/
theorem pow_toNat_div_pow_toNat (b : ℚ) (e : ℤ) : b ^ e.toNat / b ^ (-e).toNat = b ^ e := by
  obtain ⟨n, rfl | rfl⟩ := e.eq_nat_or_neg
  · simp
  · simp

/-- The value of a magnitude as a quotient of natural numbers. -/
theorem Dyadic.value_eq_div (d : Dyadic) :
    d.value =
      (d.mantissa * Nat.pow 2 d.exponent.toNat : ℕ) / (Nat.pow 2 (-d.exponent).toNat : ℕ) := by
  rw [value, ← pow_toNat_div_pow_toNat]
  simp only [Nat.pow_eq]
  push_cast
  ring

/-! ## The nearest integer -/

/-- The natural number nearest to a value, the even one if there are two. -/
def IsNearest (v : ℚ) (n : ℕ) : Prop := |v - n| < 1 / 2 ∨ |v - n| = 1 / 2 ∧ n % 2 = 0

theorem IsNearest.dist_le {v : ℚ} {n : ℕ} (h : IsNearest v n) : |v - n| ≤ 1 / 2 := by
  rcases h with h | h
  · exact h.le
  · exact h.1.le

theorem isNearest_natCast (n : ℕ) : IsNearest n n := by
  left
  rw [sub_self, abs_zero]
  norm_num

/-- There is only one nearest number. -/
theorem IsNearest.unique {v : ℚ} {a b : ℕ} (ha : IsNearest v a) (hb : IsNearest v b) : a = b := by
  have hdist : |(a : ℚ) - b| ≤ |v - a| + |v - b| := by
    rw [abs_sub_comm v a]
    exact abs_sub_le _ _ _
  have hle := ha.dist_le
  have hle' := hb.dist_le
  by_contra hne
  have hone : (1 : ℚ) ≤ |(a : ℚ) - b| := by
    exact_mod_cast Int.one_le_abs (show (a : ℤ) - b ≠ 0 by omega)
  -- Two numbers at distance one are not both even.
  have heven : a % 2 = 0 ∧ b % 2 = 0 := by
    rcases ha with ha | ha
    · linarith
    · rcases hb with hb | hb
      · linarith
      · exact ⟨ha.2, hb.2⟩
  have hstep : |(a : ℤ) - b| ≤ 1 := by
    have : |(a : ℚ) - b| ≤ 1 := by linarith
    exact_mod_cast this
  rw [abs_le] at hstep
  omega

/-- A quotient is rounded to the number nearest to it. -/
theorem isNearest_roundQuotient (num : ℕ) {den : ℕ} (h : 0 < den) :
    IsNearest (num / den) (roundQuotient num den) := by
  have hden : (0 : ℚ) < den := by exact_mod_cast h
  have hvalue : (num : ℚ) / den = (num / den : ℕ) + ((num % den : ℕ) : ℚ) / den := by
    have hdiv : (num : ℚ) = den * (num / den : ℕ) + (num % den : ℕ) := by
      exact_mod_cast (Nat.div_add_mod num den).symm
    field_simp
    exact hdiv
  simp only [roundQuotient]
  rw [hvalue]
  generalize num / den = q
  have hr : ((num % den : ℕ) : ℚ) < den := by exact_mod_cast Nat.mod_lt num h
  have hnonneg : (0 : ℚ) ≤ ((num % den : ℕ) : ℚ) := Nat.cast_nonneg _
  generalize num % den = r at *
  split
  · rename_i hc
    have hhalf : 2 * (r : ℚ) < den := by exact_mod_cast Nat.compare_eq_lt.mp hc
    left
    rw [add_sub_cancel_left, abs_of_nonneg (by positivity), div_lt_div_iff₀ hden two_pos]
    linarith
  · rename_i hc
    have hhalf : (den : ℚ) < 2 * r := by exact_mod_cast Nat.compare_eq_gt.mp hc
    left
    have hbelow : (q : ℚ) + r / den - (q + 1 : ℕ) = -(1 - r / den) := by
      push_cast
      ring
    have hfraction : (r : ℚ) / den < 1 := (div_lt_one hden).mpr hr
    have hlarge : 1 / 2 < (r : ℚ) / den := by
      rw [div_lt_div_iff₀ two_pos hden]
      linarith
    rw [hbelow, abs_neg, abs_of_pos (by linarith)]
    linarith
  · rename_i hc
    have hhalf : 2 * (r : ℚ) = den := by exact_mod_cast Nat.compare_eq_eq.mp hc
    have hfraction : (r : ℚ) / den = 1 / 2 := by
      rw [div_eq_div_iff hden.ne' two_ne_zero]
      linarith
    right
    rw [hfraction]
    rcases Nat.mod_two_eq_zero_or_one q with hq | hq
    · refine ⟨?_, by omega⟩
      rw [hq, Nat.add_zero, add_sub_cancel_left]
      norm_num
    · refine ⟨?_, by omega⟩
      rw [hq, Nat.cast_add, Nat.cast_one, add_sub_add_left_eq_sub]
      norm_num [abs_of_neg]

/-! ## Binades -/

/-- A value with a leading binary digit of a given exponent. -/
def InBinade (v : ℚ) (lead : ℤ) : Prop := 2 ^ lead ≤ v ∧ v < 2 ^ (lead + 1)

/-- The exponent of the leading digit is less than that of a greater power. -/
theorem InBinade.lt_of_lt {v : ℚ} {lead k : ℤ} (h : InBinade v lead) (hv : v < 2 ^ k) :
    lead < k :=
  (zpow_lt_zpow_iff_right₀ one_lt_two).mp (h.1.trans_lt hv)

theorem InBinade.le_of_le {v : ℚ} {lead k : ℤ} (h : InBinade v lead) (hv : 2 ^ k ≤ v) :
    k ≤ lead :=
  Int.lt_add_one_iff.mp ((zpow_lt_zpow_iff_right₀ one_lt_two).mp (hv.trans_lt h.2))

theorem InBinade.unique {v : ℚ} {a b : ℤ} (ha : InBinade v a) (hb : InBinade v b) : a = b :=
  le_antisymm (hb.le_of_le ha.1) (ha.le_of_le hb.1)

theorem scaledQuotient_value (num den : ℕ) (e : ℤ) :
    ((scaledQuotient num den e).1 : ℚ) / (scaledQuotient num den e).2 = num / den / 2 ^ e := by
  have hpow := pow_toNat_div_pow_toNat 2 (-e)
  rw [neg_neg] at hpow
  simp only [scaledQuotient, Nat.pow_eq, Nat.cast_mul, Nat.cast_pow, Nat.cast_ofNat]
  rw [mul_div_mul_comm, hpow, zpow_neg, ← div_eq_mul_inv]

theorem scaledQuotient_pos {den : ℕ} (num : ℕ) (hden : 0 < den) (e : ℤ) :
    0 < (scaledQuotient num den e).2 :=
  Nat.mul_pos hden (Nat.pow_pos two_pos)

/-- The exponent of the leading digit is found. -/
theorem inBinade_leadingExponent {num den : ℕ} (hnum : 0 < num) (hden : 0 < den) :
    InBinade (num / den) (leadingExponent num den) := by
  have hd : (0 : ℚ) < den := by exact_mod_cast hden
  have hscaled := scaledQuotient_value num den ((num.log2 : ℤ) - den.log2)
  have hpos : (0 : ℚ) < (scaledQuotient num den ((num.log2 : ℤ) - den.log2)).2 := by
    exact_mod_cast scaledQuotient_pos num hden _
  have hnum1 : (2 : ℚ) ^ (num.log2 : ℤ) ≤ num := by
    exact_mod_cast Nat.log2_self_le hnum.ne'
  have hnum2 : (num : ℚ) < 2 ^ ((num.log2 : ℤ) + 1) := by
    exact_mod_cast (Nat.lt_log2_self (n := num))
  have hden1 : (2 : ℚ) ^ (den.log2 : ℤ) ≤ den := by
    exact_mod_cast Nat.log2_self_le hden.ne'
  have hden2 : (den : ℚ) < 2 ^ ((den.log2 : ℤ) + 1) := by
    exact_mod_cast (Nat.lt_log2_self (n := den))
  have hupper : (num : ℚ) / den < 2 ^ ((num.log2 : ℤ) - den.log2 + 1) := by
    rw [show (num.log2 : ℤ) - den.log2 + 1 = (num.log2 + 1 : ℤ) - den.log2 by ring,
      zpow_sub₀ two_ne_zero]
    exact (div_lt_div_iff_of_pos_right hd).mpr hnum2 |>.trans_le
      (div_le_div_of_nonneg_left (by positivity) (by positivity) hden1)
  have hlower : (2 : ℚ) ^ ((num.log2 : ℤ) - den.log2 - 1) ≤ num / den := by
    rw [show (num.log2 : ℤ) - den.log2 - 1 = num.log2 - (den.log2 + 1 : ℤ) by ring,
      zpow_sub₀ two_ne_zero]
    exact (div_le_div_of_nonneg_left (by positivity) hd hden2.le).trans
      ((div_le_div_iff_of_pos_right hd).mpr hnum1)
  have hguess : (scaledQuotient num den ((num.log2 : ℤ) - den.log2)).2 ≤
      (scaledQuotient num den ((num.log2 : ℤ) - den.log2)).1 ↔
        (2 : ℚ) ^ ((num.log2 : ℤ) - den.log2) ≤ num / den := by
    rw [← Nat.cast_le (α := ℚ), ← one_le_div hpos, hscaled, one_le_div (by positivity)]
  simp only [leadingExponent]
  split
  · rename_i hle
    exact ⟨hguess.mp hle, hupper⟩
  · rename_i hlt
    refine ⟨hlower, ?_⟩
    rw [sub_add_cancel]
    exact not_le.mp (mt hguess.mpr hlt)

/-! ## Rounding to a format -/

/-- The exponent of the values of a format in a binade. -/
def BinaryFormat.unit (f : BinaryFormat) (lead : ℤ) : ℤ :=
  max f.least (lead - (f.precision - 1 : ℕ))

/-- The rounded value is the nearest multiple of the unit, if it is within range. -/
theorem BinaryFormat.round_eq_some {f : BinaryFormat} {num den : ℕ} (hden : 0 < den) {lead : ℤ}
    (hlead : InBinade (num / den) lead) {m : ℕ}
    (hm : IsNearest (num / den / 2 ^ f.unit lead) m)
    (hfits : m = 0 ∨ (m.log2 : ℤ) + f.unit lead < f.limit) :
    f.round num den = some ⟨m, f.unit lead⟩ := by
  have hnum : 0 < num := by
    rcases Nat.eq_zero_or_pos num with rfl | h
    · have hpos : (0 : ℚ) < 2 ^ lead := by positivity
      have := hlead.1
      rw [Nat.cast_zero, zero_div] at this
      exact absurd this (not_le.mpr hpos)
    · exact h
  have heq : leadingExponent num den = lead := (inBinade_leadingExponent hnum hden).unique hlead
  have hround := isNearest_roundQuotient (scaledQuotient num den (f.unit lead)).1
    (scaledQuotient_pos num hden (f.unit lead))
  rw [scaledQuotient_value] at hround
  have hmantissa := hround.unique hm
  rw [unit] at hmantissa hfits ⊢
  simp only [round, hnum.ne', if_false, heq, hmantissa]
  rw [if_neg (by omega)]

/-- A rounded value is off by no more than half a unit. -/
theorem abs_value_sub_le {v : ℚ} {m : ℕ} {e : ℤ} (h : IsNearest (v / 2 ^ e) m) :
    |(Dyadic.mk m e).value - v| ≤ 2 ^ e / 2 := by
  have hpos : (0 : ℚ) < 2 ^ e := by positivity
  have hscaled : (Dyadic.mk m e).value - v = -((v / 2 ^ e - m) * 2 ^ e) := by
    rw [Dyadic.value]
    field_simp
    ring
  rw [hscaled, abs_neg, abs_mul, abs_of_pos hpos]
  linarith [mul_le_mul_of_nonneg_right h.dist_le hpos.le]

end LiveDetection
