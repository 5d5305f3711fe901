import LiveDetection.Proofs.Number.Shortest
import Mathlib.Tactic.LinearCombination

/-!
# Decimals near to the ends of an interval

The ends of the interval of a value are multiples of half a power of two. A decimal on a grid that
is coarser than this power, and so near to an end that two roundings at double precision may move
it past the end, is the end itself. There is a single exception: `7038531e-32` is that near to the
end `22841339 * 2 ^ (-108)` without being the end.

Such a decimal and such an end give a fraction with a small denominator, near to a quotient that
depends on the power of two alone. Two different fractions with small denominators are not both
near to a quotient, so it is enough to look at the two next to it. They are found for all powers
between those of the least and the greatest value.
-/

namespace LiveDetection

/-- Two neighbouring fractions around the quotient `p / q`. -/
structure Bracket (p q : ℕ) where
  lowNum : ℕ
  lowDen : ℕ
  highNum : ℕ
  highDen : ℕ
  highDen_pos : 0 < highDen
  /-- No fraction between the two has a denominator less than the sum of theirs. -/
  adjacent : lowDen * highNum = lowNum * highDen + 1
  low_le : lowNum * q ≤ p * lowDen
  le_high : p * highDen ≤ highNum * q

namespace Bracket

variable {p q : ℕ}

/-- Zero and one around a quotient. -/
def unit (h : p ≤ q) : Bracket p q := ⟨0, 1, 1, 1, one_pos, by simp, by simp, by simpa using h⟩

/-- How far the lower fraction is from the quotient, up to their denominators. -/
def lowGap (b : Bracket p q) : ℕ := p * b.lowDen - b.lowNum * q

/-- How far the upper fraction is from the quotient, up to their denominators. -/
def highGap (b : Bracket p q) : ℕ := b.highNum * q - p * b.highDen

/-- Replace the lower fraction by one that is nearer by some steps. -/
def raise (b : Bracket p q) (steps : ℕ) (h : steps * b.highGap ≤ b.lowGap) : Bracket p q where
  lowNum := b.lowNum + steps * b.highNum
  lowDen := b.lowDen + steps * b.highDen
  highNum := b.highNum
  highDen := b.highDen
  highDen_pos := b.highDen_pos
  adjacent := by
    have := b.adjacent
    nlinarith
  low_le := by
    have := b.low_le
    have := b.le_high
    rw [lowGap, highGap] at h
    zify [b.low_le, b.le_high] at h ⊢
    nlinarith
  le_high := b.le_high

/-- Replace the upper fraction by one that is nearer by some steps. -/
def lower (b : Bracket p q) (steps : ℕ) (h : steps * b.lowGap ≤ b.highGap) : Bracket p q where
  lowNum := b.lowNum
  lowDen := b.lowDen
  highNum := b.highNum + steps * b.lowNum
  highDen := b.highDen + steps * b.lowDen
  highDen_pos := Nat.add_pos_left b.highDen_pos _
  adjacent := by
    have := b.adjacent
    nlinarith
  low_le := b.low_le
  le_high := by
    rw [lowGap, highGap] at h
    zify [b.low_le, b.le_high] at h ⊢
    nlinarith

/-- How many steps bring a fraction as near to the quotient as the limit for denominators allows. -/
def steps (gap step room den : ℕ) : ℕ :=
  if step = 0 then room / den else min (gap / step) (room / den)

theorem steps_mul_le (gap step room den : ℕ) : steps gap step room den * step ≤ gap := by
  rw [steps]
  split
  · rename_i h
    simp [h]
  · exact (Nat.mul_le_mul_right _ (min_le_left _ _)).trans (Nat.div_mul_le_self _ _)

/-- The fractions next to the quotient among those with denominators up to a limit. Each of the
two is replaced by nearer ones, in turn. -/
def narrow (limit : ℕ) : (fuel : ℕ) → Bracket p q → Bracket p q
  | 0, b => b
  | fuel + 1, b =>
    if limit < b.lowDen + b.highDen then b
    else
      let raised := b.raise _ (steps_mul_le b.lowGap b.highGap (limit - b.lowDen) b.highDen)
      narrow limit fuel (raised.lower _
        (steps_mul_le raised.highGap raised.lowGap (limit - raised.highDen) raised.lowDen))

end Bracket

/-! ## Fractions near to a quotient -/

/-- The greatest denominator that is looked at. The end of an interval has at most so many halves
of the distance to the value below. -/
def denominatorLimit : ℕ := 2 ^ 25 + 2

/-- The fraction `d / n` is so near to the quotient `p / q` that two roundings at double precision
may not tell them apart. -/
def IsNear (p q d n : ℕ) : Prop :=
  (2 ^ 55 - 9) * (d * q) ≤ 2 ^ 55 * (n * p) ∧ 2 ^ 55 * (n * p) ≤ (2 ^ 55 + 9) * (d * q)

instance (p q d n : ℕ) : Decidable (IsNear p q d n) :=
  inferInstanceAs (Decidable (_ ∧ _))

/-- A fraction that is equal to a near one is near. -/
theorem IsNear.of_proportional {p q a b d n : ℕ} (h : IsNear p q d n) (hn : 0 < n)
    (hprop : d * b = n * a) : IsNear p q a b := by
  obtain ⟨hbelow, habove⟩ := h
  have hscale : b * (d * q) = n * (a * q) := by
    rw [← Nat.mul_assoc, Nat.mul_comm b d, hprop, Nat.mul_assoc]
  constructor
  · refine Nat.le_of_mul_le_mul_left (c := n) ?_ hn
    calc n * ((2 ^ 55 - 9) * (a * q)) = b * ((2 ^ 55 - 9) * (d * q)) := by
          rw [Nat.mul_left_comm, ← hscale, Nat.mul_left_comm]
      _ ≤ b * (2 ^ 55 * (n * p)) := Nat.mul_le_mul_left b hbelow
      _ = n * (2 ^ 55 * (b * p)) := by ring
  · refine Nat.le_of_mul_le_mul_left (c := n) ?_ hn
    calc n * (2 ^ 55 * (b * p)) = b * (2 ^ 55 * (n * p)) := by ring
      _ ≤ b * ((2 ^ 55 + 9) * (d * q)) := Nat.mul_le_mul_left b habove
      _ = n * ((2 ^ 55 + 9) * (a * q)) := by
          rw [Nat.mul_left_comm, hscale, Nat.mul_left_comm]

namespace Bracket

variable {p q : ℕ}

/-- Between two neighbours there is only room for large denominators. -/
theorem add_le_of_between (b : Bracket p q) {d n : ℕ} (hlow : n * b.lowNum < d * b.lowDen)
    (hhigh : d * b.highDen < n * b.highNum) : b.lowDen + b.highDen ≤ n := by
  have hadjacent := b.adjacent
  zify at hlow hhigh hadjacent ⊢
  have hsplit : (n : ℤ) = b.lowDen * (n * b.highNum - d * b.highDen) +
      b.highDen * (d * b.lowDen - n * b.lowNum) := by
    linear_combination (-(n : ℤ)) * hadjacent
  nlinarith

/-- Two different fractions with small denominators are not both near to a quotient. -/
theorem false_of_distance_le {q den d : ℕ} (hq : 0 < q) (hden : den ≤ denominatorLimit)
    (hd : d ≤ 2 * denominatorLimit) (h : 2 ^ 55 * q ≤ den * (9 * (d * q))) : False := by
  have hproduct : den * d ≤ denominatorLimit * (2 * denominatorLimit) := Nat.mul_le_mul hden hd
  have hcancel : 2 ^ 55 ≤ 9 * (den * d) := by
    refine Nat.le_of_mul_le_mul_right (c := q) ?_ hq
    linarith
  rw [denominatorLimit] at hproduct
  omega

/-- A fraction that is near to the quotient is one of the two next to it. -/
theorem eq_or_eq_of_isNear (b : Bracket p q) (hq : 0 < q) (hpq : p ≤ q)
    (hwide : denominatorLimit < b.lowDen + b.highDen) (hlow : b.lowDen ≤ denominatorLimit)
    (hhigh : b.highDen ≤ denominatorLimit) {d n : ℕ} (hn : n ≤ denominatorLimit)
    (h : IsNear p q d n) : d * b.lowDen = n * b.lowNum ∨ d * b.highDen = n * b.highNum := by
  obtain ⟨hbelow, habove⟩ := h
  have hd : d ≤ 2 * denominatorLimit := by
    have hnp : n * p ≤ n * q := Nat.mul_le_mul_left n hpq
    have hdn : (2 ^ 55 - 9) * d ≤ 2 ^ 55 * n := by
      refine Nat.le_of_mul_le_mul_right (c := q) ?_ hq
      linarith
    omega
  by_contra hne
  obtain ⟨hnelow, hnehigh⟩ := not_or.mp hne
  have hlowle := b.low_le
  have hlehigh := b.le_high
  rcases Nat.lt_or_gt_of_ne hnelow with hlt | hgt
  · refine false_of_distance_le hq hlow hd ?_
    have hstep : (d * b.lowDen + 1) * q ≤ n * (p * b.lowDen) := by
      calc (d * b.lowDen + 1) * q ≤ n * b.lowNum * q := Nat.mul_le_mul_right q hlt
        _ = n * (b.lowNum * q) := by ring
        _ ≤ n * (p * b.lowDen) := Nat.mul_le_mul_left n hlowle
    have hscaled := Nat.mul_le_mul_left b.lowDen habove
    linarith
  · rcases Nat.lt_or_gt_of_ne hnehigh with hlt | hgt'
    · exact absurd (b.add_le_of_between hgt hlt) (by omega)
    · refine false_of_distance_le hq hhigh hd ?_
      have hstep : n * (p * b.highDen) + q ≤ d * b.highDen * q := by
        calc n * (p * b.highDen) + q ≤ n * (b.highNum * q) + q :=
              Nat.add_le_add_right (Nat.mul_le_mul_left n hlehigh) q
          _ = (n * b.highNum + 1) * q := by ring
          _ ≤ d * b.highDen * q := Nat.mul_le_mul_right q hgt'
      have hclose : 2 ^ 55 * (d * q) ≤ 2 ^ 55 * (n * p) + 9 * (d * q) := by omega
      have hscaled := Nat.mul_le_mul_left b.highDen hclose
      linarith

end Bracket

/-! ## Ends of intervals -/

/-- The exponent of the least power of ten that is not less than a power of two. -/
def tensAbove (k : ℤ) : ℤ := -(-k * 78913 / 262144)

/-- The numerator of the quotient of half a power of two and the least power of ten above it. -/
def halfNum (k : ℤ) : ℕ := Nat.pow 2 (k - 1).toNat * Nat.pow 10 (-tensAbove k).toNat

/-- The denominator of that quotient. -/
def halfDen (k : ℤ) : ℕ := Nat.pow 10 (tensAbove k).toNat * Nat.pow 2 (-(k - 1)).toNat

/-- Whether the fractions next to the quotient are either equal to it or not near to it. There is
one exception. -/
def Bracket.isolates {p q : ℕ} (b : Bracket p q) (k : ℤ) : Bool :=
  [(b.lowNum, b.lowDen), (b.highNum, b.highDen)].all fun f =>
    f.1 * q = p * f.2 || !decide (IsNear p q f.1 f.2) ||
      (k = -107 && f.1 = 7038531 && f.2 = 22841339)

/-- Whether the powers of ten next to a power of two are not near to it, and the fractions next to
the quotient are isolated. -/
def isSeparated (k : ℤ) : Bool :=
  compareScaled 1 (tensAbove k) 1 k != .lt && compareScaled 128 (tensAbove k - 1) 127 k != .gt &&
    if h : halfNum k ≤ halfDen k then
      let b := Bracket.narrow denominatorLimit 40 (.unit h)
      decide (denominatorLimit < b.lowDen + b.highDen) && decide (b.lowDen ≤ denominatorLimit) &&
        decide (b.highDen ≤ denominatorLimit) && b.isolates k
    else false

theorem isSeparated_of_lt : ∀ i : ℕ, i < 254 → isSeparated ((i : ℤ) - 149) = true := by
  decide +kernel

theorem isSeparated_of_mem {k : ℤ} (hlow : -149 ≤ k) (hhigh : k ≤ 104) : isSeparated k = true := by
  obtain ⟨i, hi⟩ := Int.le.dest hlow
  have hk := isSeparated_of_lt i (by omega)
  rwa [show (i : ℤ) - 149 = k by omega] at hk

/-- The powers of ten next to a power of two. -/
theorem tensAbove_spec {k : ℤ} (hlow : -149 ≤ k) (hhigh : k ≤ 104) :
    (2 : ℚ) ^ k ≤ 10 ^ tensAbove k ∧ (10 : ℚ) ^ (tensAbove k - 1) ≤ 127 / 128 * 2 ^ k := by
  have h := isSeparated_of_mem hlow hhigh
  simp only [isSeparated, Bool.and_eq_true, bne_iff_ne, ne_eq, compareScaled_eq_lt,
    compareScaled_eq_gt, not_lt] at h
  push_cast at h
  exact ⟨by linarith [h.1.1], by linarith [h.1.2]⟩

/-- The numbers of steps are in the ratio of the quotient exactly when they denote one value. -/
theorem exists_scale_half (k : ℤ) (d n : ℕ) : ∃ scale : ℚ, 0 < scale ∧
    ((d * halfDen k : ℕ) : ℚ) = d * 10 ^ tensAbove k * scale ∧
    ((n * halfNum k : ℕ) : ℚ) = n * 2 ^ (k - 1) * scale := by
  obtain ⟨scale, hscale, hleft, hright⟩ := compareScaled_sides d (tensAbove k) n (k - 1)
  refine ⟨scale, hscale, ?_, ?_⟩
  · rw [← hleft, halfDen, Nat.mul_assoc]
  · rw [← hright, halfNum, Nat.mul_assoc]

/-- A near fraction that is one of the two of an isolating bracket is the quotient, with one
exception. -/
theorem Bracket.eq_or_of_isolates {k : ℤ} (b : Bracket (halfNum k) (halfDen k))
    (hisolates : b.isolates k = true) {a c : ℕ} (hc : 0 < c)
    (hmem : (a, c) = (b.lowNum, b.lowDen) ∨ (a, c) = (b.highNum, b.highDen)) {d n : ℕ}
    (hn : 0 < n) (hnear : IsNear (halfNum k) (halfDen k) d n) (hprop : d * c = n * a) :
    d * halfDen k = n * halfNum k ∨ k = -107 ∧ d * 22841339 = n * 7038531 := by
  have hcell := List.all_eq_true.mp hisolates (a, c) (by simpa using hmem)
  simp only [Bool.or_eq_true, Bool.and_eq_true, decide_eq_true_eq, Bool.not_eq_true',
    decide_eq_false_iff_not] at hcell
  rcases hcell with (hexact | hfar) | ⟨⟨hk, rfl⟩, rfl⟩
  · left
    refine Nat.eq_of_mul_eq_mul_right hc ?_
    calc d * halfDen k * c = n * (a * halfDen k) := by rw [Nat.mul_right_comm, hprop]; ring
      _ = n * halfNum k * c := by rw [hexact]; ring
  · exact absurd (hnear.of_proportional hn hprop) hfar
  · exact .inr ⟨hk, hprop⟩

/-- A decimal that is near to a number of halves of a power of two is near in whole numbers. -/
theorem isNear_of_abs_sub_le {k : ℤ} {d n : ℕ}
    (h : |(d : ℚ) * 10 ^ tensAbove k - n * 2 ^ (k - 1)| ≤ 9 / 2 ^ 55 * (d * 10 ^ tensAbove k)) :
    IsNear (halfNum k) (halfDen k) d n := by
  obtain ⟨scale, hscale, hleft, hright⟩ := exists_scale_half k d n
  obtain ⟨hbelow, habove⟩ := abs_le.mp h
  replace hbelow := mul_le_mul_of_nonneg_right hbelow hscale.le
  replace habove := mul_le_mul_of_nonneg_right habove hscale.le
  rw [sub_mul, ← hleft, ← hright] at hbelow habove
  rw [neg_mul, mul_assoc, ← hleft] at hbelow
  rw [mul_assoc, ← hleft] at habove
  constructor
  · have hle : ((2 ^ 55 - 9 : ℕ) * (d * halfDen k : ℕ) : ℚ) ≤ 2 ^ 55 * (n * halfNum k : ℕ) := by
      norm_num
      push_cast at *
      linarith
    exact_mod_cast hle
  · have hle : (2 ^ 55 * (n * halfNum k : ℕ) : ℚ) ≤ (2 ^ 55 + 9) * (d * halfDen k : ℕ) := by
      push_cast at *
      linarith
    exact_mod_cast hle

/-- The exceptional decimal and its end are the only ones of their ratio. -/
theorem eq_of_mul_eq_mul {d n : ℕ} (hn : 0 < n) (hlimit : n ≤ denominatorLimit)
    (h : d * 22841339 = n * 7038531) : d = 7038531 ∧ n = 22841339 := by
  have hcoprime : Nat.Coprime 22841339 7038531 := by decide +kernel
  obtain ⟨t, rfl⟩ : 22841339 ∣ n := hcoprime.dvd_of_dvd_mul_right (Dvd.intro_left d h)
  have hlt : 22841339 * t < 22841339 * 2 := hlimit.trans_lt (by decide)
  obtain rfl : t = 1 :=
    le_antisymm (Nat.lt_succ_iff.mp (Nat.lt_of_mul_lt_mul_left hlt)) (Nat.pos_of_mul_pos_left hn)
  refine ⟨Nat.eq_of_mul_eq_mul_right (by decide) (h.trans ?_), Nat.mul_one _⟩
  rw [Nat.mul_one, Nat.mul_comm]

/-- A decimal that is near to an end of an interval is that end, with one exception. -/
theorem eq_or_exception {k : ℤ} (hlow : -149 ≤ k) (hhigh : k ≤ 104) {d n : ℕ} (hn : 0 < n)
    (hlimit : n ≤ denominatorLimit)
    (hnear : |(d : ℚ) * 10 ^ tensAbove k - n * 2 ^ (k - 1)| ≤ 9 / 2 ^ 55 * (d * 10 ^ tensAbove k)) :
    (d : ℚ) * 10 ^ tensAbove k = n * 2 ^ (k - 1) ∨ k = -107 ∧ d = 7038531 ∧ n = 22841339 := by
  have hisNear := isNear_of_abs_sub_le hnear
  have hden : 0 < halfDen k := Nat.mul_pos (Nat.pow_pos (by decide)) (Nat.pow_pos (by decide))
  have hseparated := isSeparated_of_mem hlow hhigh
  simp only [isSeparated, Bool.and_eq_true] at hseparated
  replace hseparated := hseparated.2
  split at hseparated
  case isFalse => cases hseparated
  case isTrue hle =>
  simp only [Bool.and_eq_true, decide_eq_true_eq] at hseparated
  obtain ⟨⟨⟨hwide, hlowDen⟩, hhighDen⟩, hisolates⟩ := hseparated
  generalize Bracket.narrow denominatorLimit 40 (.unit hle) = b at *
  have hratio : d * halfDen k = n * halfNum k ∨ k = -107 ∧ d * 22841339 = n * 7038531 := by
    rcases b.eq_or_eq_of_isNear hden hle hwide hlowDen hhighDen hlimit hisNear with h | h
    · exact b.eq_or_of_isolates hisolates (by omega) (.inl rfl) hn hisNear h
    · exact b.eq_or_of_isolates hisolates b.highDen_pos (.inr rfl) hn hisNear h
  refine hratio.imp (fun heq => ?_) (fun h => ⟨h.1, eq_of_mul_eq_mul hn hlimit h.2⟩)
  obtain ⟨scale, hscale, hleft, hright⟩ := exists_scale_half k d n
  have hcast : ((d * halfDen k : ℕ) : ℚ) = (n * halfNum k : ℕ) := by rw [heq]
  rw [hleft, hright] at hcast
  exact mul_right_cancel₀ hscale.ne' hcast

end LiveDetection
