import LiveDetection.Proofs.Number.Single
import Mathlib.Algebra.Order.Floor.Semifield
import Mathlib.Data.Rat.Floor

/-!
# The fewest digits that read back

The decimal that is selected for a value lies in the interval of the value and has at most nine
digits. On a grid that is finer than the values are apart it is the decimal nearest to the value.
-/

namespace LiveDetection

/-- The value of a decimal. -/
def Decimal.value (d : Decimal) : ℚ := d.digits * 10 ^ d.exponent

/-! ## Exact comparisons -/

/-- The two sides of a comparison as multiples of the values that they are compared for. -/
theorem compareScaled_sides (a : ℕ) (i : ℤ) (m : ℕ) (j : ℤ) :
    ∃ scale : ℚ, 0 < scale ∧
      ((a * Nat.pow 10 i.toNat * Nat.pow 2 (-j).toNat : ℕ) : ℚ) = a * 10 ^ i * scale ∧
      ((m * Nat.pow 2 j.toNat * Nat.pow 10 (-i).toNat : ℕ) : ℚ) = m * 2 ^ j * scale := by
  refine ⟨10 ^ (-i).toNat * 2 ^ (-j).toNat, by positivity, ?_, ?_⟩
  · rw [← pow_toNat_div_pow_toNat 10 i]
    simp only [Nat.pow_eq]
    push_cast
    field_simp
  · rw [← pow_toNat_div_pow_toNat 2 j]
    simp only [Nat.pow_eq]
    push_cast
    field_simp

theorem compareScaled_eq_lt {a : ℕ} {i : ℤ} {m : ℕ} {j : ℤ} :
    compareScaled a i m j = .lt ↔ (a : ℚ) * 10 ^ i < m * 2 ^ j := by
  obtain ⟨scale, hscale, hleft, hright⟩ := compareScaled_sides a i m j
  rw [compareScaled, Nat.compare_eq_lt, ← Nat.cast_lt (α := ℚ), hleft, hright,
    mul_lt_mul_iff_of_pos_right hscale]

theorem compareScaled_eq_gt {a : ℕ} {i : ℤ} {m : ℕ} {j : ℤ} :
    compareScaled a i m j = .gt ↔ (m : ℚ) * 2 ^ j < a * 10 ^ i := by
  obtain ⟨scale, hscale, hleft, hright⟩ := compareScaled_sides a i m j
  rw [compareScaled, Nat.compare_eq_gt, ← Nat.cast_lt (α := ℚ), hleft, hright,
    mul_lt_mul_iff_of_pos_right hscale]

theorem compareScaled_eq_eq {a : ℕ} {i : ℤ} {m : ℕ} {j : ℤ} :
    compareScaled a i m j = .eq ↔ (a : ℚ) * 10 ^ i = m * 2 ^ j := by
  obtain ⟨scale, hscale, hleft, hright⟩ := compareScaled_sides a i m j
  rw [compareScaled, Nat.compare_eq_eq, ← Nat.cast_inj (R := ℚ), hleft, hright,
    mul_left_inj' hscale.ne']

namespace Single

/-- A decimal reads back when it lies in the interval of the value. -/
theorem readsBack_iff {x : Single} {d : Decimal} : x.readsBack d = true ↔ x.Covers d.value := by
  have hlower : x.lowerQuarters = if x.narrowBelow then 4 * x.magnitude.mantissa - 1
      else 4 * x.magnitude.mantissa - 2 := rfl
  simp only [readsBack, ← hlower, Bool.and_eq_true, Bool.or_eq_true, beq_iff_eq,
    compareScaled_eq_lt, compareScaled_eq_gt, compareScaled_eq_eq]
  exact ⟨fun h => ⟨h.1, h.2⟩, fun h => ⟨h.lower, h.upper⟩⟩

/-! ## Decimal grids -/

/-- The exponent that is found is that of the first power of ten above the value. -/
theorem decimalScale_spec {m : ℕ} {q : ℤ} (hlow : (10 : ℚ) ^ (-46 : ℤ) ≤ m * 2 ^ q)
    (hhigh : (m : ℚ) * 2 ^ q < 10 ^ (43 : ℤ)) :
    (10 : ℚ) ^ (decimalScale m q - 1) ≤ m * 2 ^ q ∧ (m : ℚ) * 2 ^ q < 10 ^ decimalScale m q ∧
      -45 ≤ decimalScale m q ∧ decimalScale m q ≤ 43 := by
  have hgt (i : ℕ) : (compareScaled 1 ((i : ℤ) - 46) m q == .gt) = true ↔
      (m : ℚ) * 2 ^ q < 10 ^ ((i : ℤ) - 46) := by
    rw [beq_iff_eq, compareScaled_eq_gt, Nat.cast_one, one_mul]
  obtain ⟨i, hi⟩ : ∃ i, (List.range 90).find?
      (fun i : ℕ => compareScaled 1 ((i : ℤ) - 46) m q == .gt) = some i := by
    rw [← Option.isSome_iff_exists, List.find?_isSome]
    exact ⟨89, by simp, (hgt 89).mpr hhigh⟩
  have hscale : decimalScale m q = (i : ℤ) - 46 := by
    simp only [decimalScale, hi, Option.getD_some]
  obtain ⟨hp, hmem, hbefore⟩ := List.find?_range_eq_some.mp hi
  have hlt : i < 90 := List.mem_range.mp hmem
  rw [hscale]
  have hone : 1 ≤ i := by
    by_contra hzero
    obtain rfl : i = 0 := by omega
    have := (hgt 0).mp hp
    norm_num at this hlow
    linarith
  refine ⟨?_, (hgt i).mp hp, by omega, by omega⟩
  have hprev := hbefore (i - 1) (by omega)
  rw [Bool.not_eq_true', ← Bool.not_eq_true, hgt, not_lt] at hprev
  rwa [show (i : ℤ) - 46 - 1 = ((i - 1 : ℕ) : ℤ) - 46 by omega]

/-- Whole steps of a grid below a value. -/
theorem wholeTens_spec (m : ℕ) (q i : ℤ) :
    (wholeTens m q i : ℚ) * 10 ^ i ≤ m * 2 ^ q ∧
      (m : ℚ) * 2 ^ q < (wholeTens m q i + 1) * 10 ^ i := by
  have hquotient : ((m * Nat.pow 2 q.toNat * Nat.pow 10 (-i).toNat : ℕ) : ℚ) /
      (Nat.pow 2 (-q).toNat * Nat.pow 10 i.toNat : ℕ) = m * 2 ^ q / 10 ^ i := by
    rw [← pow_toNat_div_pow_toNat 2 q, ← pow_toNat_div_pow_toNat 10 i]
    simp only [Nat.pow_eq]
    push_cast
    field_simp
  rw [← le_div_iff₀ (by positivity), ← div_lt_iff₀ (by positivity), ← hquotient, wholeTens,
    ← Nat.floor_div_eq_div (K := ℚ)]
  exact ⟨Nat.floor_le (by positivity), Nat.lt_floor_add_one _⟩

/-- A power of ten as steps of a grid. -/
theorem ten_zpow_eq (k : ℤ) (n : ℕ) : (10 : ℚ) ^ k = 10 ^ n * 10 ^ (k - n) := by
  rw [← zpow_natCast, ← zpow_add₀ (by norm_num)]
  congr 1
  ring

/-- Below a power of ten there are only so many whole steps. -/
theorem wholeTens_lt {m : ℕ} {q k : ℤ} (h : (m : ℚ) * 2 ^ q < 10 ^ k) (n : ℕ) :
    wholeTens m q (k - n) < 10 ^ n := by
  have hdown := (wholeTens_spec m q (k - n)).1.trans_lt h
  rw [ten_zpow_eq k n, mul_lt_mul_iff_of_pos_right (by positivity)] at hdown
  exact_mod_cast hdown

/-- A decimal that is selected on a grid lies in the interval of the value, and it is one of the
two next to the value. If it is not the nearer one, the nearer one does not lie in the interval. -/
theorem nearestOnGrid_spec {x : Single} {i : ℤ} {d : Decimal} (h : x.nearestOnGrid i = some d) :
    d.exponent = i ∧ x.Covers d.value ∧
      d.digits ≤ wholeTens x.magnitude.mantissa x.magnitude.exponent i + 1 ∧
      (|d.value - x.value| ≤ 10 ^ i / 2 ∨ ∃ w, |w - x.value| ≤ 10 ^ i / 2 ∧ ¬ x.Covers w) := by
  obtain ⟨hdown, hup⟩ := wholeTens_spec x.magnitude.mantissa x.magnitude.exponent i
  have hvalue : x.value = x.magnitude.mantissa * 2 ^ x.magnitude.exponent := rfl
  rw [← hvalue] at hdown hup
  simp only [nearestOnGrid] at h
  generalize wholeTens x.magnitude.mantissa x.magnitude.exponent i = down at *
  have hstep : (0 : ℚ) < 10 ^ i := by positivity
  have hbelow (hle : x.value - down * 10 ^ i ≤ 10 ^ i / 2) :
      |(Decimal.mk down i).value - x.value| ≤ 10 ^ i / 2 := by
    rw [Decimal.value, abs_le]
    constructor <;> linarith
  have habove (hle : (down + 1) * 10 ^ i - x.value ≤ 10 ^ i / 2) :
      |(Decimal.mk (down + 1) i).value - x.value| ≤ 10 ^ i / 2 := by
    rw [Decimal.value, abs_le]
    push_cast
    constructor <;> linarith
  have hother {n : ℕ} (hread : x.readsBack ⟨n, i⟩ = false) :
      ¬ x.Covers (Decimal.mk n i).value := by
    rw [← readsBack_iff, hread]
    exact Bool.false_ne_true
  cases hread : x.readsBack ⟨down, i⟩ <;> cases hread' : x.readsBack ⟨down + 1, i⟩ <;>
    simp only [hread, hread', List.filter_cons, List.filter_nil, if_true, if_false,
      Bool.false_eq_true] at h
  case false.false => cases h
  case false.true =>
    cases h
    refine ⟨rfl, readsBack_iff.mp hread', le_rfl, ?_⟩
    by_cases hle : (down + 1) * 10 ^ i - x.value ≤ 10 ^ i / 2
    · exact .inl (habove hle)
    · exact .inr ⟨_, hbelow (by linarith), hother hread⟩
  case true.false =>
    cases h
    refine ⟨rfl, readsBack_iff.mp hread, Nat.le_succ _, ?_⟩
    by_cases hle : x.value - down * 10 ^ i ≤ 10 ^ i / 2
    · exact .inl (hbelow hle)
    · exact .inr ⟨_, habove (by linarith), hother hread'⟩
  case true.true =>
    -- Both neighbours read back, so the exact comparison picks the nearer one.
    split at h
    · rename_i hc
      cases h
      rw [compareScaled_eq_gt] at hc
      refine ⟨rfl, readsBack_iff.mp hread, Nat.le_succ _, .inl (hbelow ?_)⟩
      push_cast at hc
      linarith
    · rename_i hc
      cases h
      rw [compareScaled_eq_lt] at hc
      refine ⟨rfl, readsBack_iff.mp hread', le_rfl, .inl (habove ?_)⟩
      push_cast at hc
      linarith
    · rename_i hc
      cases h
      rw [compareScaled_eq_eq] at hc
      push_cast at hc
      rcases Nat.mod_two_eq_zero_or_one down with heven | hodd
      · rw [heven, Nat.add_zero]
        exact ⟨rfl, readsBack_iff.mp hread, Nat.le_succ _, .inl (hbelow (by linarith))⟩
      · rw [hodd]
        exact ⟨rfl, readsBack_iff.mp hread', le_rfl, .inl (habove (by linarith))⟩

/-- On a grid that is finer than half the distance to the next value some decimal is selected. -/
theorem exists_nearestOnGrid {x : Single} (hpos : x.magnitude.mantissa ≠ 0) {i : ℤ}
    (h : (10 : ℚ) ^ i ≤ 2 ^ x.gapBelow / 2) : ∃ d, x.nearestOnGrid i = some d := by
  obtain ⟨hdown, hup⟩ := wholeTens_spec x.magnitude.mantissa x.magnitude.exponent i
  have hvalue : x.value = x.magnitude.mantissa * 2 ^ x.magnitude.exponent := rfl
  rw [← hvalue] at hdown hup
  have hread : x.readsBack ⟨wholeTens x.magnitude.mantissa x.magnitude.exponent i, i⟩ = true := by
    refine readsBack_iff.mpr (covers_of_abs_sub_lt hpos ?_)
    rw [Decimal.value, abs_lt]
    constructor <;> linarith
  simp only [nearestOnGrid]
  generalize wholeTens x.magnitude.mantissa x.magnitude.exponent i = down at *
  simp only [hread, List.filter_cons, if_true]
  split
  · contradiction
  · exact ⟨_, rfl⟩
  · split <;> exact ⟨_, rfl⟩

/-! ## Trailing zeros -/

/-- Without its trailing zeros a decimal has the same value, and its exponent grows by no more
than the number of zeros. -/
theorem stripZeros_spec (fuel : ℕ) (d : Decimal) :
    (stripZeros fuel d).value = d.value ∧ (stripZeros fuel d).digits ≤ d.digits ∧
      d.exponent ≤ (stripZeros fuel d).exponent ∧
      (stripZeros fuel d).exponent ≤ d.exponent + fuel := by
  fun_induction stripZeros fuel d with
  | case1 d => exact ⟨rfl, le_rfl, le_rfl, by simp⟩
  | case2 fuel d h ih =>
    obtain ⟨hvalue, hdigits, hlow, hhigh⟩ := ih
    simp only at hlow hhigh
    refine ⟨?_, hdigits.trans (Nat.div_le_self _ _), by omega, by push_cast; omega⟩
    have hten : (d.digits : ℚ) = (d.digits / 10 : ℕ) * 10 := by
      exact_mod_cast (Nat.div_mul_cancel (Nat.dvd_of_mod_eq_zero h.2)).symm
    rw [hvalue, Decimal.value, Decimal.value, hten, zpow_add_one₀ (by norm_num)]
    ring
  | case3 fuel d h => exact ⟨rfl, le_rfl, le_rfl, by push_cast; omega⟩

/-! ## The selected decimal -/

/-- What the decimal of a value is like. -/
structure Shortens (x : Single) (d : Decimal) : Prop where
  covers : x.Covers d.value
  digits_pos : 0 < d.digits
  digits_le : d.digits ≤ 10 ^ 9
  le_exponent : -54 ≤ d.exponent
  exponent_le : d.exponent ≤ 51
  /-- On a grid that is finer than the values are apart it is nearest to the value. -/
  onGrid : ∃ (n : ℕ) (i : ℤ), d.value = n * 10 ^ i ∧
    ((10 : ℚ) ^ i < 2 ^ x.gapBelow → |d.value - x.value| ≤ 10 ^ i / 2)

/-- The bounds of the positive finite magnitudes. -/
theorem value_bounds {x : Single} (hx : x.isFinite) (hpos : x.magnitude.mantissa ≠ 0) :
    (2 : ℚ) ^ (-149 : ℤ) ≤ x.value ∧ x.value < 2 ^ (128 : ℤ) ∧
      x.value ≤ 2 ^ 24 * 2 ^ x.gapBelow := by
  obtain ⟨m, q, hparts⟩ := exists_hasParts hx
  rw [hparts.gapBelow_eq, value, Dyadic.value, hparts.magnitude_eq]
  rw [hparts.magnitude_eq] at hpos
  simp only at hpos ⊢
  have hm := hparts.mantissa_lt
  have hmge : (1 : ℚ) ≤ m := by exact_mod_cast Nat.one_le_iff_ne_zero.mpr hpos
  have hmlt : (m : ℚ) < 2 ^ 24 := by exact_mod_cast hm
  have hunit : (0 : ℚ) < 2 ^ q := by positivity
  have hleast : (2 : ℚ) ^ (-149 : ℤ) ≤ 2 ^ q := zpow_le_zpow_right₀ one_le_two hparts.least_le
  have hmost : (2 : ℚ) ^ q ≤ 2 ^ (104 : ℤ) := zpow_le_zpow_right₀ one_le_two hparts.le_most
  refine ⟨by nlinarith, ?_, ?_⟩
  · calc (m : ℚ) * 2 ^ q < 2 ^ 24 * 2 ^ q := mul_lt_mul_of_pos_right hmlt hunit
      _ ≤ 2 ^ 24 * 2 ^ (104 : ℤ) := by gcongr
      _ = 2 ^ (128 : ℤ) := by norm_num
  · split
    · rename_i hnarrow
      rw [hnarrow.1, zpow_sub_one₀ two_ne_zero]
      push_cast
      linarith
    · exact mul_le_mul_of_nonneg_right hmlt.le hunit.le

/-- With nine digits the grid is fine enough for some decimal to be selected. -/
theorem exists_findSome?_nearestOnGrid {x : Single} (hx : x.isFinite)
    (hpos : x.magnitude.mantissa ≠ 0) {k : ℤ} (hlow : (10 : ℚ) ^ (k - 1) ≤ x.value) :
    ∃ d, ((List.range 9).findSome? fun n : ℕ => x.nearestOnGrid (k - (n + 1 : ℕ))) = some d := by
  obtain ⟨-, -, hgap⟩ := value_bounds hx hpos
  have hfine : (10 : ℚ) ^ (k - (8 + 1 : ℕ)) ≤ 2 ^ x.gapBelow / 2 := by
    have hsplit := ten_zpow_eq (k - 1) 8
    rw [show k - 1 - (8 : ℕ) = k - (8 + 1 : ℕ) by push_cast; ring] at hsplit
    have hle := hlow.trans hgap
    rw [hsplit] at hle
    have hpositive : (0 : ℚ) < 2 ^ x.gapBelow := by positivity
    generalize (10 : ℚ) ^ (k - (8 + 1 : ℕ)) = step at *
    generalize (2 : ℚ) ^ x.gapBelow = gap at *
    linarith
  obtain ⟨d, hd⟩ := exists_nearestOnGrid hpos hfine
  rw [← Option.isSome_iff_exists, List.findSome?_isSome_iff]
  exact ⟨8, by simp, by rw [hd]; rfl⟩

/-- The decimal that is selected has no more than nine digits. -/
theorem shortens_shortest {x : Single} (hx : x.isFinite) (hpos : x.magnitude.mantissa ≠ 0) :
    x.Shortens x.shortest := by
  obtain ⟨hleast, hmost, -⟩ := value_bounds hx hpos
  obtain ⟨hlow, hhigh, hscale, hscale'⟩ := decimalScale_spec (m := x.magnitude.mantissa)
    (q := x.magnitude.exponent) (le_trans (by norm_num) hleast) (hmost.trans (by norm_num))
  simp only [shortest, if_neg hpos]
  generalize decimalScale x.magnitude.mantissa x.magnitude.exponent = k at *
  obtain ⟨d, hd⟩ := exists_findSome?_nearestOnGrid hx hpos hlow
  obtain ⟨n, hn, hgrid⟩ := List.exists_of_findSome?_eq_some hd
  have hn9 : n < 9 := List.mem_range.mp hn
  obtain ⟨hexponent, hcovers, hdigits, hnear⟩ := nearestOnGrid_spec hgrid
  obtain ⟨hstrip, hstripped, hstart, hend⟩ := stripZeros_spec 9 d
  simp only [hd]
  generalize stripZeros 9 d = s at *
  have hsvalue : x.Covers s.value := hstrip ▸ hcovers
  refine ⟨hsvalue, ?_, ?_, by push_cast at hexponent; omega, by push_cast at hexponent; omega,
    d.digits, k - (n + 1 : ℕ), by rw [hstrip, Decimal.value, hexponent], ?_⟩
  · rw [Nat.pos_iff_ne_zero]
    intro hzero
    have hspos := hsvalue.pos hpos
    rw [Decimal.value, hzero, Nat.cast_zero, zero_mul] at hspos
    exact lt_irrefl 0 hspos
  · have hlt := wholeTens_lt hhigh (n + 1)
    have hle : 10 ^ (n + 1) ≤ 10 ^ 9 := Nat.pow_le_pow_right (by decide) (by omega)
    omega
  · -- What is nearer to the value would lie in its interval as well.
    intro hlt
    rw [hstrip]
    refine hnear.resolve_right ?_
    rintro ⟨w, hw, hnot⟩
    exact hnot (covers_of_abs_sub_lt hpos (by linarith))

end Single

end LiveDetection
