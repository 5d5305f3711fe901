import LiveDetection.Number.Shortest
import LiveDetection.Proofs.Number.Rounding

/-!
# What rounds to a single-precision value

The values that round to a finite single-precision value form an interval around it. Its ends
belong to it when the significand is even. Just above a power of two the values below lie half as
far apart, so there the interval reaches down only half as far.
-/

namespace LiveDetection.Single

/-- The value of a finite magnitude. -/
def value (x : Single) : ℚ := x.magnitude.value

/-- The lower end of the interval, in quarters of the last digit. -/
def lowerQuarters (x : Single) : ℕ :=
  if x.narrowBelow then 4 * x.magnitude.mantissa - 1 else 4 * x.magnitude.mantissa - 2

/-- The upper end of the interval, in quarters of the last digit. -/
def upperQuarters (x : Single) : ℕ := 4 * x.magnitude.mantissa + 2

/-- A number of quarters of the last digit. -/
def quarters (x : Single) (n : ℕ) : ℚ := n * 2 ^ (x.magnitude.exponent - 2)

/-- The exponent of the distance to the next value below. -/
def gapBelow (x : Single) : ℤ :=
  if x.narrowBelow then x.magnitude.exponent - 1 else x.magnitude.exponent

theorem quarters_eq (x : Single) (n : ℕ) : x.quarters n = n / 4 * 2 ^ x.magnitude.exponent := by
  rw [quarters, zpow_sub₀ two_ne_zero]
  norm_num
  ring

/-- The lower end lies half the way to the next value below. -/
theorem quarters_lowerQuarters {x : Single} (hpos : x.magnitude.mantissa ≠ 0) :
    x.quarters x.lowerQuarters = x.value - 2 ^ x.gapBelow / 2 := by
  rw [quarters_eq, lowerQuarters, gapBelow, value, Dyadic.value]
  by_cases hnarrow : x.narrowBelow = true
  · rw [if_pos hnarrow, if_pos hnarrow, Nat.cast_sub (by omega), zpow_sub_one₀ two_ne_zero]
    push_cast
    ring
  · rw [if_neg hnarrow, if_neg hnarrow, Nat.cast_sub (by omega)]
    push_cast
    ring

/-- The upper end lies half the way to the next value above. -/
theorem quarters_upperQuarters (x : Single) :
    x.quarters x.upperQuarters = x.value + 2 ^ x.magnitude.exponent / 2 := by
  rw [quarters_eq, upperQuarters, value, Dyadic.value]
  push_cast
  ring

theorem gapBelow_le (x : Single) : x.gapBelow ≤ x.magnitude.exponent := by
  rw [gapBelow]
  split <;> omega

/-- The interval of what rounds to a finite magnitude. -/
structure Covers (x : Single) (v : ℚ) : Prop where
  lower : x.quarters x.lowerQuarters < v ∨
    x.magnitude.mantissa % 2 = 0 ∧ v = x.quarters x.lowerQuarters
  upper : v < x.quarters x.upperQuarters ∨
    x.magnitude.mantissa % 2 = 0 ∧ v = x.quarters x.upperQuarters

/-- The parts of a finite magnitude. -/
structure HasParts (x : Single) (m : ℕ) (q : ℤ) : Prop where
  magnitude_eq : x.magnitude = ⟨m, q⟩
  mantissa_lt : m < 2 ^ 24
  least_le : -149 ≤ q
  le_most : q ≤ 104
  /-- Only the values with the least exponent have leading zeros. -/
  least_or_normal : q = -149 ∨ 2 ^ 23 ≤ m
  bits_eq : x.magnitudeBits = (q + 149).toNat * 0x800000 + m

theorem exists_hasParts {x : Single} (h : x.isFinite) : ∃ m q, x.HasParts m q := by
  have hbits : x.magnitudeBits < 0x7F800000 := by simpa [isFinite] using h
  by_cases hfield : x.magnitudeBits / 0x800000 = 0
  · have hparts : x.magnitude = ⟨x.magnitudeBits % 0x800000, -149⟩ := by
      simp [magnitude, hfield]
    exact ⟨_, _, hparts, by omega, by omega, by omega, .inl rfl, by omega⟩
  · have hparts : x.magnitude = ⟨0x800000 + x.magnitudeBits % 0x800000,
        ((x.magnitudeBits / 0x800000 : ℕ) : ℤ) - 150⟩ := by
      simp [magnitude, hfield]
    exact ⟨_, _, hparts, by omega, by omega, by omega, .inr (by omega), by omega⟩

/-- The values below are nearer just above a power of two, except at the least exponent. -/
theorem HasParts.narrowBelow_iff {x : Single} {m : ℕ} {q : ℤ} (h : x.HasParts m q) :
    x.narrowBelow = true ↔ m = 2 ^ 23 ∧ -149 < q := by
  obtain ⟨-, hm, hq, -, hnormal, hbits⟩ := h
  simp only [narrowBelow, Bool.and_eq_true, beq_iff_eq, decide_eq_true_eq, hbits]
  omega

/-- A value is put together from its sign and its magnitude. -/
theorem ofMagnitude_eq {x : Single} {d : Dyadic}
    (h : (d.exponent + 149).toNat * 0x800000 + d.mantissa = x.magnitudeBits) :
    ofMagnitude x.negative (some d) = x := by
  have hlt := x.bits.toNat_lt
  simp only [ofMagnitude, h]
  obtain ⟨bits⟩ := x
  simp only [negative, magnitudeBits] at *
  congr 1
  rw [← UInt32.toNat_inj, UInt32.toNat_ofNat']
  by_cases hs : 0x80000000 ≤ bits.toNat
  · simp only [hs, decide_true, if_true]
    omega
  · simp only [hs, decide_false, Bool.false_eq_true, if_false]
    omega

theorem HasParts.gapBelow_eq {x : Single} {m : ℕ} {q : ℤ} (h : x.HasParts m q) :
    x.gapBelow = if m = 2 ^ 23 ∧ -149 < q then q - 1 else q := by
  simp only [gapBelow, h.narrowBelow_iff, h.magnitude_eq]

/-- What is nearer to a value than half the way to the next values lies in its interval. -/
theorem covers_of_abs_sub_lt {x : Single} (hpos : x.magnitude.mantissa ≠ 0) {w : ℚ}
    (h : |w - x.value| < 2 ^ x.gapBelow / 2) : x.Covers w := by
  obtain ⟨hbelow, habove⟩ := abs_lt.mp h
  have hgap : (2 : ℚ) ^ x.gapBelow ≤ 2 ^ x.magnitude.exponent :=
    zpow_le_zpow_right₀ one_le_two x.gapBelow_le
  constructor
  · left
    rw [quarters_lowerQuarters hpos]
    linarith
  · left
    rw [quarters_upperQuarters]
    linarith

/-- What lies in an interval is not below its lower end. -/
theorem Covers.lower_le {x : Single} {v : ℚ} (h : x.Covers v) (hpos : x.magnitude.mantissa ≠ 0) :
    x.value - 2 ^ x.gapBelow / 2 ≤ v := by
  rw [← quarters_lowerQuarters hpos]
  rcases h.lower with hlt | ⟨-, heq⟩
  · exact hlt.le
  · exact heq.ge

/-- What lies in an interval is not above its upper end. -/
theorem Covers.le_upper {x : Single} {v : ℚ} (h : x.Covers v) :
    v ≤ x.value + 2 ^ x.magnitude.exponent / 2 := by
  rw [← quarters_upperQuarters]
  rcases h.upper with hlt | ⟨-, heq⟩
  · exact hlt.le
  · exact heq.le

/-- All of an interval is positive. -/
theorem Covers.pos {x : Single} {v : ℚ} (h : x.Covers v) (hpos : x.magnitude.mantissa ≠ 0) :
    0 < v := by
  have hlower := h.lower_le hpos
  have hgap : (2 : ℚ) ^ x.gapBelow ≤ 2 ^ x.magnitude.exponent :=
    zpow_le_zpow_right₀ one_le_two x.gapBelow_le
  have hone : (1 : ℚ) ≤ x.magnitude.mantissa := by
    exact_mod_cast Nat.one_le_iff_ne_zero.mpr hpos
  have hunit : (0 : ℚ) < 2 ^ x.magnitude.exponent := by positivity
  have hvalue : (2 : ℚ) ^ x.magnitude.exponent ≤ x.value := le_mul_of_one_le_left hunit.le hone
  linarith

/-- In units of the last digit the significand is nearest to what lies in the interval. -/
theorem Covers.isNearest {x : Single} {v : ℚ} (h : x.Covers v) (hpos : x.magnitude.mantissa ≠ 0) :
    IsNearest (v / 2 ^ x.magnitude.exponent) x.magnitude.mantissa := by
  have hunit : (0 : ℚ) < 2 ^ x.magnitude.exponent := by positivity
  have hgap : (2 : ℚ) ^ x.gapBelow ≤ 2 ^ x.magnitude.exponent :=
    zpow_le_zpow_right₀ one_le_two x.gapBelow_le
  have hscaled : v / 2 ^ x.magnitude.exponent - x.magnitude.mantissa =
      (v - x.value) / 2 ^ x.magnitude.exponent := by
    rw [value, Dyadic.value]
    field_simp
  rw [IsNearest, hscaled, abs_div, abs_of_pos hunit, div_lt_iff₀ hunit, div_eq_iff hunit.ne']
  by_cases heven : x.magnitude.mantissa % 2 = 0
  · have hdist : |v - x.value| ≤ 1 / 2 * 2 ^ x.magnitude.exponent :=
      abs_le.mpr ⟨by linarith [h.lower_le hpos], by linarith [h.le_upper]⟩
    exact hdist.lt_or_eq.imp_right fun heq => ⟨heq, heven⟩
  · have hlower := h.lower.resolve_right fun heq => heven heq.1
    have hupper := h.upper.resolve_right fun heq => heven heq.1
    rw [quarters_lowerQuarters hpos] at hlower
    rw [quarters_upperQuarters] at hupper
    exact .inl (abs_lt.mpr ⟨by linarith, by linarith⟩)

/-- A value in a binade with the unit of a magnitude rounds to it when it is nearest. -/
theorem HasParts.ofQuotient_of_unit_eq {x : Single} {m : ℕ} {q : ℤ} (h : x.HasParts m q)
    (hm : m ≠ 0) {num den : ℕ} (hden : 0 < den) {lead : ℤ} (hlead : InBinade (num / den) lead)
    (hunit : BinaryFormat.single.unit lead = q) (hnearest : IsNearest (num / den / 2 ^ q) m) :
    ofQuotient x.negative num den = x := by
  have hlog : m.log2 < 24 := (Nat.log2_lt hm).mpr h.mantissa_lt
  have hmost := h.le_most
  rw [← hunit] at hnearest
  rw [ofQuotient, BinaryFormat.round_eq_some hden hlead hnearest (.inr ?_), hunit]
  · exact ofMagnitude_eq h.bits_eq.symm
  · rw [hunit]
    simp only [BinaryFormat.single]
    omega

/-- A value just below a power of two rounds to it. There the unit is only half as large. -/
theorem HasParts.ofQuotient_of_lt {x : Single} {q : ℤ} (h : x.HasParts (2 ^ 23) q)
    (hq : -149 < q) {num den : ℕ} (hden : 0 < den)
    (hlower : (2 : ℚ) ^ 23 - 1 / 4 ≤ num / den / 2 ^ q)
    (hupper : (num : ℚ) / den / 2 ^ q < 2 ^ 23) :
    ofQuotient x.negative num den = x := by
  have hpos : (0 : ℚ) < 2 ^ q := by positivity
  have hmost := h.le_most
  have hlead : InBinade (num / den) (q + 22) := by
    constructor
    · rw [add_comm, zpow_add₀ two_ne_zero, ← le_div_iff₀ hpos]
      norm_num at hlower ⊢
      linarith
    · rw [show q + 22 + 1 = 23 + q by ring, zpow_add₀ two_ne_zero, ← div_lt_iff₀ hpos]
      exact_mod_cast hupper
  have hunit : BinaryFormat.single.unit (q + 22) = q - 1 := by
    simp only [BinaryFormat.unit, BinaryFormat.single]
    omega
  have hnearest : IsNearest (num / den / 2 ^ BinaryFormat.single.unit (q + 22)) (2 ^ 24) := by
    have hdouble : (num : ℚ) / den / 2 ^ (q - 1) = 2 * (num / den / 2 ^ q) := by
      rw [zpow_sub_one₀ two_ne_zero]
      field_simp
    have hdist : |2 * ((num : ℚ) / den / 2 ^ q) - (2 ^ 24 : ℕ)| ≤ 1 / 2 := by
      push_cast
      rw [abs_le]
      constructor <;> linarith
    rw [hunit, hdouble]
    rcases hdist.lt_or_eq with hlt | heq
    · exact .inl hlt
    · exact .inr ⟨heq, rfl⟩
  rw [ofQuotient, BinaryFormat.round_eq_some hden hlead hnearest (.inr ?_), hunit]
  · refine ofMagnitude_eq ?_
    rw [h.bits_eq]
    show (q - 1 + 149).toNat * 0x800000 + 2 ^ 24 = _
    omega
  · rw [hunit, Nat.log2_two_pow]
    simp only [BinaryFormat.single]
    omega

/-- A value that is not below the binade of a magnitude rounds to it when it is nearest. -/
theorem HasParts.ofQuotient_of_isNearest {x : Single} {m : ℕ} {q : ℤ} (h : x.HasParts m q)
    (hm : m ≠ 0) {num den : ℕ} (hden : 0 < den)
    (hbinade : q = -149 ∨ (2 : ℚ) ^ 23 ≤ num / den / 2 ^ q)
    (hnearest : IsNearest (num / den / 2 ^ q) m) : ofQuotient x.negative num den = x := by
  have hunit : (0 : ℚ) < 2 ^ q := by positivity
  have hmge : (1 : ℚ) ≤ m := by exact_mod_cast Nat.one_le_iff_ne_zero.mpr hm
  have hmle : (m : ℚ) ≤ 16777215 := by
    have := h.mantissa_lt
    exact_mod_cast (show m ≤ 16777215 by omega)
  obtain ⟨hbelow, habove⟩ := abs_le.mp hnearest.dist_le
  have hnum : 0 < num := by
    rcases Nat.eq_zero_or_pos num with rfl | hnum
    · norm_num at hbelow
      linarith
    · exact hnum
  have hlead := inBinade_leadingExponent hnum hden
  have hlt : leadingExponent num den < q + 24 := by
    refine hlead.lt_of_lt ?_
    rw [add_comm, zpow_add₀ two_ne_zero, ← div_lt_iff₀ hunit]
    norm_num
    linarith
  refine h.ofQuotient_of_unit_eq hm hden hlead ?_ hnearest
  simp only [BinaryFormat.unit, BinaryFormat.single]
  rcases hbinade with hleast | hle
  · omega
  · have hle' : q + 23 ≤ leadingExponent num den := by
      refine hlead.le_of_le ?_
      rw [add_comm, zpow_add₀ two_ne_zero, ← le_div_iff₀ hunit]
      exact_mod_cast hle
    have hq := h.least_le
    omega

/-- What lies in the interval of a value rounds to it. -/
theorem ofQuotient_of_covers {x : Single} (hx : x.isFinite) (hpos : x.magnitude.mantissa ≠ 0)
    {num den : ℕ} (hden : 0 < den) (h : x.Covers (num / den)) :
    ofQuotient x.negative num den = x := by
  obtain ⟨m, q, hparts⟩ := exists_hasParts hx
  have hnearest := h.isNearest hpos
  have hlower := h.lower_le hpos
  rw [value, Dyadic.value, hparts.gapBelow_eq] at hlower
  rw [hparts.magnitude_eq] at hpos hnearest hlower
  simp only at hpos hnearest hlower
  by_cases hbinade : q = -149 ∨ (2 : ℚ) ^ 23 ≤ num / den / 2 ^ q
  · exact hparts.ofQuotient_of_isNearest hpos hden hbinade hnearest
  · -- The value lies below the binade of its significand, which is then a power of two.
    obtain ⟨hleast, hlow⟩ := not_or.mp hbinade
    rw [not_le] at hlow
    have hq := hparts.least_le
    have hmpow : m = 2 ^ 23 := by
      have hnormal := hparts.least_or_normal.resolve_left hleast
      have hmlt : (m : ℚ) < 8388609 := by
        have hbelow := (abs_le.mp hnearest.dist_le).1
        norm_num at hlow
        linarith
      have hmlt' : m < 8388609 := by exact_mod_cast hmlt
      omega
    subst hmpow
    refine hparts.ofQuotient_of_lt (by omega) hden ?_ hlow
    rw [if_pos ⟨rfl, by omega⟩, zpow_sub_one₀ two_ne_zero] at hlower
    rw [le_div_iff₀ (by positivity)]
    push_cast at hlower
    linarith

/-- A magnitude in the interval of a value rounds to it. -/
theorem ofMagnitude_roundDyadic {x : Single} (hx : x.isFinite) (hpos : x.magnitude.mantissa ≠ 0)
    {d : Dyadic} (h : x.Covers d.value) :
    ofMagnitude x.negative (BinaryFormat.single.roundDyadic d) = x := by
  rw [d.value_eq_div] at h
  exact ofQuotient_of_covers hx hpos (Nat.pow_pos two_pos) h

end LiveDetection.Single
