import LiveDetection.Json.Single
import LiveDetection.Proofs.Number.Double

/-!
# Numbers read at double precision

A number whose digits fit a word is read in one rounding of the power of ten and one of the
product or quotient. The result is near to the value of the number. It is the value itself if
the power of ten has few binary digits and the value has as well.
-/

namespace LiveDetection.Json

/-! ## The digits as a word -/

theorem le_foldl_digits (digits : List ℕ) (word : ℕ) :
    word ≤ digits.foldl (fun n d => 10 * n + d) word := by
  induction digits generalizing word with
  | nil => exact le_rfl
  | cons d digits ih => exact le_trans (by omega) (ih (10 * word + d))

/-- Digits that fit a word are collected. -/
theorem collectDigits_of_le {digits : List ℕ} {word : ℕ}
    (h : digits.foldl (fun n d => 10 * n + d) word ≤ wordLimit) :
    collectDigits word digits = (digits.foldl (fun n d => 10 * n + d) word, []) := by
  induction digits generalizing word with
  | nil => rfl
  | cons d digits ih =>
    rw [collectDigits, if_pos ((le_foldl_digits digits _).trans h), ih h, List.foldl_cons]

namespace Number

/-- All digits of a number as one word. -/
def word (n : Number) : ℕ := ofDigits (n.whole ++ n.fraction)

/-- The power of ten of a number, as it is given. -/
def givenTens (n : Number) : ℤ :=
  match n.exponent with
  | none => 0
  | some e => if e.negative then -(ofDigits e.digits : ℤ) else ofDigits e.digits

/-- The power of ten of the last digit of a number. -/
def tens (n : Number) : ℤ := -(n.fraction.length : ℤ) + n.givenTens

/-- The value of a number without its sign. -/
def value (n : Number) : ℚ := n.word * 10 ^ n.tens

theorem significand_of_word_le {n : Number} (h : n.word ≤ wordLimit) :
    n.significand = (n.word, -(n.fraction.length : ℤ)) := by
  rw [word, ofDigits, List.foldl_append] at h
  have hwhole := collectDigits_of_le ((le_foldl_digits n.fraction _).trans h)
  simp only [significand, hwhole, collectDigits_of_le h, word, ofDigits, List.foldl_append,
    List.length_nil, Nat.sub_zero, Nat.cast_zero, zero_sub]

/-- A number with a small word and a small power of ten is scaled once. -/
theorem double?_eq {n : Number} (hword : n.word ≤ wordLimit)
    (hexponent : ∀ e ∈ n.exponent, ofDigits e.digits < exponentLimit) :
    n.double? = (BinaryFormat.double.round n.word 1).bind fun f => scale f n.tens := by
  simp only [double?, significand_of_word_le hword, tens, givenTens]
  cases he : n.exponent with
  | none => simp only [add_zero]
  | some e => simp only [if_pos (hexponent e he)]

/-! ## Powers of ten -/

/-- A power of ten is rounded. -/
theorem isDoubleOf_powerOfTen {n : ℕ} (h : n ≤ 60) :
    IsDoubleOf (powerOfTen n) (10 ^ n) := by
  have hvalue : ((Nat.pow 10 n : ℕ) : ℚ) / (1 : ℕ) = 10 ^ n := by simp
  have hrange : InRange (((Nat.pow 10 n : ℕ) : ℚ) / (1 : ℕ)) := by
    rw [hvalue]
    exact ⟨le_trans (by norm_num) (one_le_pow₀ (by norm_num)),
      (pow_le_pow_right₀ (by norm_num) h).trans_lt (by norm_num)⟩
  obtain ⟨d, hd, hdouble⟩ := exists_double_round one_pos hrange
  rw [hvalue] at hdouble
  rwa [powerOfTen, hd, Option.getD_some]

/-- Rounded, the powers of ten that are looked at stay well within range. -/
theorem powerOfTen_bounds {n : ℕ} (h : n ≤ 60) :
    1 / 2 ≤ (powerOfTen n).value ∧ (powerOfTen n).value ≤ 2 * 10 ^ 60 := by
  have hone : (1 : ℚ) ≤ 10 ^ n := one_le_pow₀ (by norm_num)
  have hmost : (10 : ℚ) ^ n ≤ 10 ^ 60 := pow_le_pow_right₀ (by norm_num) h
  obtain ⟨hbelow, habove⟩ := abs_le.mp (isDoubleOf_powerOfTen h).near
  constructor <;> linarith

/-- A small power of ten has few binary digits. -/
theorem isShort_powerOfTen {n : ℕ} (h : n ≤ 22) : IsShort (10 ^ n) := by
  refine ⟨5 ^ n, n, ?_, (Nat.pow_le_pow_right (by decide) h).trans_lt (by decide)⟩
  rw [zpow_natCast]
  push_cast
  rw [← mul_pow]
  norm_num

/-- What two roundings leave of a value. -/
structure IsScaledTo (d : Dyadic) (v : ℚ) (power : ℤ) : Prop where
  near : |d.value - v| ≤ 9 / 2 ^ 55 * v
  exact : power.natAbs ≤ 22 → IsShort v → d.value = v

/-- A value near to another one is rounded to one that is not much farther from it. -/
theorem abs_sub_le_of_isDoubleOf {d : Dyadic} {v w : ℚ} (hw : |w - v| ≤ 9 / 2 ^ 56 * v)
    (hd : IsDoubleOf d w) : |d.value - v| ≤ 9 / 2 ^ 55 * v := by
  have hnear := hd.near
  rw [abs_le] at *
  constructor <;> linarith

/-- A word times a power of ten. -/
theorem exists_scale_of_nonneg {f : Dyadic} {w n : ℕ} (hf : f.value = w) (hpos : 0 < w)
    (hlt : w < 2 ^ 53) (hn : n ≤ 60) :
    ∃ g, BinaryFormat.double.multiply f (powerOfTen n) = some g ∧
      IsScaledTo g (w * 10 ^ n) n := by
  have hpower := isDoubleOf_powerOfTen hn
  obtain ⟨hleast, hmost⟩ := powerOfTen_bounds hn
  have hone : (1 : ℚ) ≤ w := by exact_mod_cast hpos
  have hword : (w : ℚ) ≤ 2 ^ 53 := by exact_mod_cast hlt.le
  have hrange : InRange (f.value * (powerOfTen n).value) := by
    rw [hf]
    constructor
    · calc (2 : ℚ) ^ (-256 : ℤ) ≤ 1 * (1 / 2) := by norm_num
        _ ≤ w * (powerOfTen n).value := mul_le_mul hone hleast (by norm_num) (by linarith)
    · calc w * (powerOfTen n).value ≤ 2 ^ 53 * (2 * 10 ^ 60) :=
            mul_le_mul hword hmost (by linarith) (by norm_num)
        _ < 2 ^ (256 : ℤ) := by norm_num
  obtain ⟨g, hg, hdouble⟩ := BinaryFormat.exists_double_multiply hrange
  rw [hf] at hdouble
  refine ⟨g, hg, abs_sub_le_of_isDoubleOf ?_ hdouble, fun hsmall hshort => ?_⟩
  · rw [← mul_sub, abs_mul, abs_of_pos (by linarith)]
    have hproduct : (0 : ℚ) < w * 10 ^ n := by positivity
    calc w * |(powerOfTen n).value - 10 ^ n| ≤ w * (10 ^ n / 2 ^ 53) :=
          mul_le_mul_of_nonneg_left hpower.near (by linarith)
      _ ≤ 9 / 2 ^ 56 * (w * 10 ^ n) := by linarith
  · rw [hpower.exact (isShort_powerOfTen (by simpa using hsmall))] at hdouble
    exact hdouble.exact hshort

/-- A word divided by a power of ten. -/
theorem exists_scale_of_neg {f : Dyadic} {w n : ℕ} (hf : f.value = w) (hpos : 0 < w)
    (hlt : w < 2 ^ 53) (hn : n ≤ 60) :
    ∃ g, BinaryFormat.double.divide f (powerOfTen n) = some g ∧
      IsScaledTo g (w / 10 ^ n) (-n) := by
  have hpower := isDoubleOf_powerOfTen hn
  obtain ⟨hleast, hmost⟩ := powerOfTen_bounds hn
  have hone : (1 : ℚ) ≤ w := by exact_mod_cast hpos
  have hword : (w : ℚ) ≤ 2 ^ 53 := by exact_mod_cast hlt.le
  have hdivisor : (0 : ℚ) < (powerOfTen n).value := by linarith
  have hmantissa : (powerOfTen n).mantissa ≠ 0 := by
    intro hzero
    rw [Dyadic.value, hzero, Nat.cast_zero, zero_mul] at hdivisor
    exact lt_irrefl 0 hdivisor
  have hrange : InRange (f.value / (powerOfTen n).value) := by
    rw [hf, InRange, le_div_iff₀ hdivisor, div_lt_iff₀ hdivisor]
    constructor
    · calc (2 : ℚ) ^ (-256 : ℤ) * (powerOfTen n).value ≤ 2 ^ (-256 : ℤ) * (2 * 10 ^ 60) :=
            mul_le_mul_of_nonneg_left hmost (by positivity)
        _ ≤ 1 := by norm_num
        _ ≤ w := hone
    · calc (w : ℚ) ≤ 2 ^ 53 := hword
        _ < 2 ^ (256 : ℤ) * (1 / 2) := by norm_num
        _ ≤ 2 ^ (256 : ℤ) * (powerOfTen n).value :=
            mul_le_mul_of_nonneg_left hleast (by positivity)
  obtain ⟨g, hg, hdouble⟩ := BinaryFormat.exists_double_divide hmantissa hrange
  rw [hf] at hdouble
  refine ⟨g, hg, abs_sub_le_of_isDoubleOf ?_ hdouble, fun hsmall hshort => ?_⟩
  · have hdifference : (w : ℚ) / (powerOfTen n).value - w / 10 ^ n =
        w / 10 ^ n * ((10 ^ n - (powerOfTen n).value) / (powerOfTen n).value) := by
      field_simp
    have hrelative : |10 ^ n - (powerOfTen n).value| / (powerOfTen n).value ≤ 9 / 2 ^ 56 := by
      have hnear := hpower.near
      have hbelow := (abs_le.mp hnear).1
      rw [abs_sub_comm, div_le_iff₀ hdivisor]
      linarith
    rw [hdifference, abs_mul, abs_div (10 ^ n - _), abs_of_pos hdivisor, abs_of_pos (by positivity),
      mul_comm]
    exact mul_le_mul_of_nonneg_right hrelative (by positivity)
  · rw [hpower.exact (isShort_powerOfTen (by simpa using hsmall))] at hdouble
    exact hdouble.exact hshort

/-- A small word is a double-precision value, so it is only rounded when it is scaled. -/
theorem exists_scale {w : ℕ} (hpos : 0 < w) (hlt : w < 2 ^ 53) {power : ℤ}
    (hpower : power.natAbs ≤ 60) :
    ∃ f g, BinaryFormat.double.round w 1 = some f ∧ scale f power = some g ∧
      IsScaledTo g (w * 10 ^ power) power := by
  have hone : (1 : ℚ) ≤ w := by exact_mod_cast hpos
  have hrange : InRange ((w : ℚ) / (1 : ℕ)) := by
    rw [Nat.cast_one, div_one]
    exact ⟨le_trans (by norm_num) hone, lt_trans (by exact_mod_cast hlt)
      (show (2 : ℚ) ^ 53 < 2 ^ (256 : ℤ) by norm_num)⟩
  obtain ⟨f, hf, hdouble⟩ := exists_double_round one_pos hrange
  rw [Nat.cast_one, div_one] at hdouble
  have hvalue : f.value = w := hdouble.exact ⟨w, 0, by simp, hlt⟩
  have hscale : scale f power = if 0 ≤ power then
      BinaryFormat.double.multiply f (powerOfTen power.natAbs)
      else BinaryFormat.double.divide f (powerOfTen power.natAbs) := by
    rw [scale, if_pos (hpower.trans (by decide))]
  by_cases hsign : 0 ≤ power
  · obtain ⟨g, hg, hscaled⟩ := exists_scale_of_nonneg hvalue hpos hlt hpower
    refine ⟨f, g, hf, by rw [hscale, if_pos hsign, hg], ?_⟩
    rwa [← zpow_natCast, Int.natAbs_of_nonneg hsign] at hscaled
  · obtain ⟨g, hg, hscaled⟩ := exists_scale_of_neg hvalue hpos hlt hpower
    refine ⟨f, g, hf, by rw [hscale, if_neg hsign, hg], ?_⟩
    rwa [div_eq_mul_inv, ← zpow_natCast, ← zpow_neg, ← Int.abs_eq_natAbs,
      abs_of_neg (not_le.mp hsign), neg_neg] at hscaled

/-! ## Reading -/

/-- A number with a few digits and a small power of ten. It is not an integer. -/
structure IsModest (n : Number) : Prop where
  word_pos : 0 < n.word
  word_lt : n.word < 10 ^ 14
  tens_le : n.tens.natAbs ≤ 60
  exponent_lt : ∀ e ∈ n.exponent, ofDigits e.digits < exponentLimit
  not_integer : n.fraction ≠ [] ∨ n.exponent ≠ none

theorem isWord_eq_false {n : Number} (h : n.fraction ≠ [] ∨ n.exponent ≠ none) :
    n.isWord = false := by
  rw [isWord]
  rcases h with h | h
  · simp [h]
  · obtain ⟨e, he⟩ := Option.ne_none_iff_exists'.mp h
    simp [he]

/-- A modest number is read in two roundings, and its value is rounded again. -/
theorem IsModest.exists_toSingle? {n : Number} (h : n.IsModest) :
    ∃ g, n.toSingle? = some (.ofMagnitude n.negative (BinaryFormat.single.roundDyadic g)) ∧
      IsScaledTo g n.value n.tens := by
  obtain ⟨f, g, hf, hg, hscaled⟩ := exists_scale h.word_pos (h.word_lt.trans (by decide)) h.tens_le
  refine ⟨g, ?_, hscaled⟩
  rw [toSingle?, isWord_eq_false h.not_integer, if_neg Bool.false_ne_true,
    double?_eq (h.word_lt.le.trans (by decide)) h.exponent_lt, hf, Option.bind_some, hg,
    Option.map_some]

end Number

end LiveDetection.Json
