import LiveDetection.Proofs.Number.Separation

/-!
# What two roundings leave in an interval

The decimal that is selected for a value lies in the interval of the value, but it may be as near
to an end of it as two roundings at double precision are to the decimal. Then it is the end itself,
which is not changed by the roundings. There is one exception among the magnitudes.
-/

namespace LiveDetection.Single

/-- The lower end of the interval, in halves of the distance to the next value below. -/
def lowerHalves (x : Single) : ℕ :=
  if x.narrowBelow then 4 * x.magnitude.mantissa - 1 else 2 * x.magnitude.mantissa - 1

/-- The upper end of the interval, in halves of the distance to the next value below. -/
def upperHalves (x : Single) : ℕ :=
  if x.narrowBelow then 4 * x.magnitude.mantissa + 2 else 2 * x.magnitude.mantissa + 1

theorem HasParts.gapBelow_mem {x : Single} {m : ℕ} {q : ℤ} (h : x.HasParts m q) :
    -149 ≤ x.gapBelow ∧ x.gapBelow ≤ 104 := by
  have hleast := h.least_le
  have hmost := h.le_most
  rw [h.gapBelow_eq]
  split <;> omega

theorem exponent_le_gapBelow (x : Single) : x.magnitude.exponent ≤ x.gapBelow + 1 := by
  rw [gapBelow]
  split <;> omega

/-- Where the values below are nearer, the significand is the least one. -/
theorem mantissa_le {x : Single} (hx : x.isFinite) :
    x.magnitude.mantissa < 2 ^ 24 ∧ (x.narrowBelow → x.magnitude.mantissa = 2 ^ 23) := by
  obtain ⟨m, q, hparts⟩ := exists_hasParts hx
  rw [hparts.magnitude_eq]
  exact ⟨hparts.mantissa_lt, fun hnarrow => (hparts.narrowBelow_iff.mp hnarrow).1⟩

/-- An end of an interval as a number of halves of the distance to the next value below. The value
is no nearer to it than one of them. -/
structure IsEnd (x : Single) (v : ℚ) (n : ℕ) : Prop where
  eq_mul : v = n * 2 ^ (x.gapBelow - 1)
  pos : 0 < n
  le_limit : n ≤ denominatorLimit
  far : 2 ^ x.gapBelow / 2 ≤ |v - x.value|

theorem isEnd_lower {x : Single} (hx : x.isFinite) (hpos : x.magnitude.mantissa ≠ 0) :
    x.IsEnd (x.quarters x.lowerQuarters) x.lowerHalves := by
  obtain ⟨hm, hnarrow⟩ := mantissa_le hx
  refine ⟨?_, ?_, ?_, ?_⟩
  · rw [quarters, lowerQuarters, lowerHalves, gapBelow]
    split
    · ring_nf
    · have hdouble : 4 * x.magnitude.mantissa - 2 = (2 * x.magnitude.mantissa - 1) * 2 := by omega
      rw [hdouble, show x.magnitude.exponent - 1 = x.magnitude.exponent - 2 + 1 by ring,
        zpow_add_one₀ two_ne_zero]
      push_cast
      ring
  · rw [lowerHalves]
    split <;> omega
  · rw [lowerHalves, denominatorLimit]
    split
    · rename_i h
      have := hnarrow h
      omega
    · omega
  · rw [quarters_lowerQuarters hpos, sub_sub_cancel_left, abs_neg, abs_of_pos (by positivity)]

theorem isEnd_upper {x : Single} (hx : x.isFinite) :
    x.IsEnd (x.quarters x.upperQuarters) x.upperHalves := by
  obtain ⟨hm, hnarrow⟩ := mantissa_le hx
  refine ⟨?_, ?_, ?_, ?_⟩
  · rw [quarters, upperQuarters, upperHalves, gapBelow]
    split
    · ring_nf
    · rw [show x.magnitude.exponent - 1 = x.magnitude.exponent - 2 + 1 by ring,
        zpow_add_one₀ two_ne_zero]
      push_cast
      ring
  · rw [upperHalves]
    split <;> omega
  · rw [upperHalves, denominatorLimit]
    split
    · rename_i h
      have := hnarrow h
      omega
    · omega
  · have hgap : (2 : ℚ) ^ x.gapBelow ≤ 2 ^ x.magnitude.exponent :=
      zpow_le_zpow_right₀ one_le_two x.gapBelow_le
    rw [quarters_upperQuarters, add_sub_cancel_left, abs_of_pos (by positivity)]
    linarith

/-- What lies in an interval is not much greater than the distances there. -/
theorem Covers.le_gap {x : Single} (hx : x.isFinite) (hpos : x.magnitude.mantissa ≠ 0) {v : ℚ}
    (h : x.Covers v) : v ≤ 2 ^ 25 * 2 ^ x.gapBelow := by
  obtain ⟨-, -, hgap⟩ := value_bounds hx hpos
  have hupper := h.le_upper
  have hunit : (2 : ℚ) ^ x.magnitude.exponent ≤ 2 * 2 ^ x.gapBelow := by
    rw [← zpow_one_add₀ two_ne_zero, add_comm]
    exact zpow_le_zpow_right₀ one_le_two x.exponent_le_gapBelow
  have hpositive : (0 : ℚ) < 2 ^ x.gapBelow := by positivity
  linarith

/-- A decimal that is near to an end of the interval is the end, with one exception. -/
theorem Shortens.eq_or_exception {x : Single} (hx : x.isFinite) (hpos : x.magnitude.mantissa ≠ 0)
    {d : Decimal} (hd : x.Shortens d) {v : ℚ} {n : ℕ} (hend : x.IsEnd v n)
    (hnear : |d.value - v| ≤ 9 / 2 ^ 55 * d.value) :
    d.value = v ∨ x.gapBelow = -107 ∧ d.value = 7038531 * 10 ^ (-32 : ℤ) ∧ n = 22841339 := by
  obtain ⟨m, q, hparts⟩ := exists_hasParts hx
  obtain ⟨hleast, hmost⟩ := hparts.gapBelow_mem
  obtain ⟨habove, hbelow⟩ := tensAbove_spec hleast hmost
  obtain ⟨c, i, hvalue, hgrid⟩ := hd.onGrid
  by_cases hi : i < tensAbove x.gapBelow
  · -- The grid is finer than the values are apart, and the decimal is the nearest on it. So it is
    -- far from the end.
    exfalso
    have hstep : (10 : ℚ) ^ i ≤ 127 / 128 * 2 ^ x.gapBelow :=
      (zpow_le_zpow_right₀ (by norm_num) (by omega)).trans hbelow
    have hpositive : (0 : ℚ) < 2 ^ x.gapBelow := by positivity
    have hclose := hgrid (by linarith)
    have hle := hd.covers.le_gap hx hpos
    have hfar := hend.far
    have hsplit : |v - x.value| ≤ |d.value - v| + |d.value - x.value| := by
      rw [abs_sub_comm d.value v]
      exact abs_sub_le _ _ _
    generalize (2 : ℚ) ^ x.gapBelow = gap at *
    linarith
  · -- The decimal is a multiple of the power of ten above the distance.
    obtain ⟨j, hj⟩ := Int.le.dest (not_lt.mp hi)
    have hmultiple : d.value = (c * 10 ^ j : ℕ) * 10 ^ tensAbove x.gapBelow := by
      rw [hvalue, ← hj, zpow_add₀ (by norm_num), zpow_natCast]
      push_cast
      ring
    rw [hmultiple, hend.eq_mul] at hnear ⊢
    refine (LiveDetection.eq_or_exception hleast hmost hend.pos hend.le_limit hnear).imp_right ?_
    rintro ⟨hk, hc, hn⟩
    exact ⟨hk, by rw [hc, hk]; norm_num [tensAbove], hn⟩

/-- The one magnitude whose decimal may not be read well enough in two roundings. -/
def exceptionalBits : ℕ := 0x15AE43FD

theorem magnitudeBits_of_exception {x : Single} (hx : x.isFinite) (hgap : x.gapBelow = -107)
    (hn : x.upperHalves = 22841339) : x.magnitudeBits = exceptionalBits := by
  obtain ⟨m, q, hparts⟩ := exists_hasParts hx
  rw [hparts.bits_eq, exceptionalBits]
  rw [gapBelow, hparts.magnitude_eq] at hgap
  rw [upperHalves, hparts.magnitude_eq] at hn
  by_cases hnarrow : x.narrowBelow = true
  · rw [if_pos hnarrow] at hn
    omega
  · rw [if_neg hnarrow] at hgap hn
    simp only at hgap hn
    omega

/-- What is as near to the decimal as two roundings leave it, and the decimal itself when this has
few binary digits, lies in the interval. There is one exception. -/
theorem Shortens.covers_of_near {x : Single} (hx : x.isFinite)
    (hpos : x.magnitude.mantissa ≠ 0) {d : Decimal} (hd : x.Shortens d) {v : ℚ}
    (hnear : |v - d.value| ≤ 9 / 2 ^ 55 * d.value)
    (hexact : ∀ (n : ℕ) (j : ℤ), n ≤ denominatorLimit → d.value = n * 2 ^ j → v = d.value) :
    x.Covers v ∨ x.magnitudeBits = exceptionalBits := by
  have hcovers := hd.covers
  obtain ⟨hbelow, habove⟩ := abs_le.mp hnear
  have hclose {w : ℚ} (hw : v ≤ w ∧ w ≤ d.value ∨ d.value ≤ w ∧ w ≤ v) :
      |d.value - w| ≤ 9 / 2 ^ 55 * d.value := by
    rw [abs_le]
    rcases hw with ⟨h, h'⟩ | ⟨h, h'⟩ <;> constructor <;> linarith
  have hends {w : ℚ} {n : ℕ} (hend : x.IsEnd w n) (heq : d.value = w) : v = d.value :=
    hexact n _ hend.le_limit (heq.trans hend.eq_mul)
  by_cases hlower : x.quarters x.lowerQuarters < v
  · by_cases hupper : v < x.quarters x.upperQuarters
    · exact .inl ⟨.inl hlower, .inl hupper⟩
    · have hend := isEnd_upper hx
      have hle : d.value ≤ x.quarters x.upperQuarters := by
        rw [quarters_upperQuarters]
        exact hcovers.le_upper
      rcases hd.eq_or_exception hx hpos hend (hclose (.inr ⟨hle, not_lt.mp hupper⟩)) with
        heq | ⟨hgap, -, hn⟩
      · exact .inl (by rwa [hends hend heq])
      · exact .inr (magnitudeBits_of_exception hx hgap hn)
  · have hend := isEnd_lower hx hpos
    have hle : x.quarters x.lowerQuarters ≤ d.value := by
      rw [quarters_lowerQuarters hpos]
      exact hcovers.lower_le hpos
    rcases hd.eq_or_exception hx hpos hend (hclose (.inl ⟨not_lt.mp hlower, hle⟩)) with
      heq | ⟨hgap, hvalue, hn⟩
    · exact .inl (by rwa [hends hend heq])
    · -- The exceptional decimal lies below its end, so this end is not the lower one.
      exfalso
      rw [hend.eq_mul, hvalue, hgap, hn] at hle
      norm_num at hle

end LiveDetection.Single
