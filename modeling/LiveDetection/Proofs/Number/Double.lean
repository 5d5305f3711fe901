import LiveDetection.Proofs.Number.Rounding

/-!
# Double precision

Well within range a value is off by no more than one part in `2 ^ 53` when it is rounded to double
precision, and a value with few enough binary digits is not changed at all. So is the result of
one multiplication or division.
-/

namespace LiveDetection

/-- A value with no more binary digits than double precision has. -/
def IsShort (v : ℚ) : Prop := ∃ (c : ℕ) (t : ℤ), v = c * 2 ^ t ∧ c < 2 ^ 53

/-- What rounding to double precision does to a value: the result is near to the value, and it is
the value itself if this is short. -/
structure IsDoubleOf (d : Dyadic) (v : ℚ) : Prop where
  near : |d.value - v| ≤ v / 2 ^ 53
  exact : IsShort v → d.value = v

/-- A value far from the ends of the range of double precision. -/
def InRange (v : ℚ) : Prop := 2 ^ (-256 : ℤ) ≤ v ∧ v < 2 ^ (256 : ℤ)

/-- A short value is a natural number of units of the last digit at double precision. -/
theorem IsShort.exists_eq_natCast {v : ℚ} (h : IsShort v) {lead : ℤ} (hlead : InBinade v lead) :
    ∃ n : ℕ, v / 2 ^ (lead - 52) = n := by
  obtain ⟨c, t, rfl, hc⟩ := h
  have hlt : lead < t + 53 := by
    refine hlead.lt_of_lt ?_
    have hcast : (c : ℚ) < 2 ^ (53 : ℤ) := by exact_mod_cast hc
    rw [add_comm, zpow_add₀ two_ne_zero]
    exact mul_lt_mul_of_pos_right hcast (by positivity)
  obtain ⟨k, hk⟩ := Int.le.dest (show lead - 52 ≤ t by omega)
  refine ⟨c * 2 ^ k, ?_⟩
  rw [← hk, zpow_add₀ two_ne_zero, zpow_natCast]
  push_cast
  field_simp

/-- In units of its last digit a value has at most one digit more than the format. -/
theorem le_of_isNearest_of_inBinade {v : ℚ} {lead : ℤ} (hlead : InBinade v lead) {m : ℕ}
    (hm : IsNearest (v / 2 ^ (lead - 52)) m) : m ≤ 2 ^ 53 := by
  have hscaled : v / 2 ^ (lead - 52) < 2 ^ 53 := by
    have hsum : (2 : ℚ) ^ 53 * 2 ^ (lead - 52) = 2 ^ (lead + 1) := by
      rw [← zpow_natCast, ← zpow_add₀ two_ne_zero]
      congr 1
      push_cast
      ring
    rw [div_lt_iff₀ (by positivity), hsum]
    exact hlead.2
  have hlt : (m : ℚ) < 2 ^ 53 + 1 := by linarith [(abs_le.mp hm.dist_le).1]
  exact Nat.lt_succ_iff.mp (by exact_mod_cast hlt)

/-- The nearest number of units of the last digit is what a value is rounded to. -/
theorem isDoubleOf_of_isNearest {v : ℚ} {lead : ℤ} (hlead : InBinade v lead) {m : ℕ}
    (hm : IsNearest (v / 2 ^ (lead - 52)) m) : IsDoubleOf ⟨m, lead - 52⟩ v where
  near := by
    refine (abs_value_sub_le hm).trans ?_
    have hulp : (2 : ℚ) ^ (lead - 52) / 2 = 2 ^ lead / 2 ^ 53 := by
      rw [zpow_sub₀ two_ne_zero, div_div, ← zpow_add_one₀ two_ne_zero]
      norm_num
    rw [hulp]
    exact div_le_div_of_nonneg_right hlead.1 (by positivity)
  exact hshort := by
    obtain ⟨n, hn⟩ := hshort.exists_eq_natCast hlead
    rw [hn] at hm
    rw [Dyadic.value, hm.unique (isNearest_natCast n), ← hn]
    field_simp

/-- A value well within range is rounded to double precision. -/
theorem exists_double_round {num den : ℕ} (hden : 0 < den) (h : InRange (num / den)) :
    ∃ d, BinaryFormat.double.round num den = some d ∧ IsDoubleOf d (num / den) := by
  obtain ⟨hlow, hhigh⟩ := h
  have hnum : 0 < num := by
    rcases Nat.eq_zero_or_pos num with rfl | hnum
    · norm_num at hlow
    · exact hnum
  have hbinade := inBinade_leadingExponent hnum hden
  generalize leadingExponent num den = lead at hbinade
  have hleast : -256 ≤ lead := hbinade.le_of_le hlow
  have hmost : lead < 256 := hbinade.lt_of_lt hhigh
  have hunit : BinaryFormat.double.unit lead = lead - 52 := by
    simp only [BinaryFormat.unit, BinaryFormat.double]
    omega
  have hm := isNearest_roundQuotient (scaledQuotient num den (lead - 52)).1
    (scaledQuotient_pos num hden (lead - 52))
  rw [scaledQuotient_value] at hm
  generalize roundQuotient _ _ = m at hm
  have hfits : m = 0 ∨
      (m.log2 : ℤ) + BinaryFormat.double.unit lead < BinaryFormat.double.limit := by
    rcases Nat.eq_zero_or_pos m with rfl | hpos
    · exact .inl rfl
    · right
      have hlog : m.log2 ≤ 53 := (Nat.pow_le_pow_iff_right (by decide)).mp
        ((Nat.log2_self_le hpos.ne').trans (le_of_isNearest_of_inBinade hbinade hm))
      rw [hunit]
      simp only [BinaryFormat.double]
      omega
  refine ⟨⟨m, lead - 52⟩, ?_, isDoubleOf_of_isNearest hbinade hm⟩
  rw [← hunit] at hm ⊢
  exact BinaryFormat.round_eq_some hden hbinade hm hfits

/-! ## Arithmetic -/

namespace BinaryFormat

/-- A magnitude well within range is rounded to double precision. -/
theorem exists_double_roundDyadic {d : Dyadic} (h : InRange d.value) :
    ∃ e, double.roundDyadic d = some e ∧ IsDoubleOf e d.value := by
  rw [d.value_eq_div] at h ⊢
  exact exists_double_round (Nat.pow_pos two_pos) h

/-- A product is rounded once. -/
theorem exists_double_multiply {a b : Dyadic} (h : InRange (a.value * b.value)) :
    ∃ d, double.multiply a b = some d ∧ IsDoubleOf d (a.value * b.value) := by
  have hproduct : a.value * b.value =
      (Dyadic.mk (a.mantissa * b.mantissa) (a.exponent + b.exponent)).value := by
    simp only [Dyadic.value, zpow_add₀ (two_ne_zero' ℚ)]
    push_cast
    ring
  rw [hproduct] at h ⊢
  exact exists_double_roundDyadic h

/-- A quotient is rounded once. -/
theorem exists_double_divide {a b : Dyadic} (hb : b.mantissa ≠ 0)
    (h : InRange (a.value / b.value)) :
    ∃ d, double.divide a b = some d ∧ IsDoubleOf d (a.value / b.value) := by
  have hquotient : a.value / b.value =
      ((a.mantissa * Nat.pow 2 (a.exponent - b.exponent).toNat : ℕ) : ℚ) /
        (b.mantissa * Nat.pow 2 (-(a.exponent - b.exponent)).toNat : ℕ) := by
    simp only [Nat.pow_eq]
    push_cast
    rw [mul_div_mul_comm, pow_toNat_div_pow_toNat, zpow_sub₀ two_ne_zero, Dyadic.value,
      Dyadic.value, mul_div_mul_comm]
  rw [hquotient] at h ⊢
  exact exists_double_round (Nat.mul_pos (Nat.pos_of_ne_zero hb) (Nat.pow_pos two_pos)) h

end BinaryFormat

end LiveDetection
