import LiveDetection.Number.Digits
import Mathlib.Data.List.Basic
import Mathlib.Tactic.Ring

/-!
# Digits read back

Digits are read as they were written up to the first character that is no digit. The digits of
a number are at least one, and the first is zero only for zero.
-/

namespace LiveDetection

/-- What follows does not go on with a digit. -/
def NoDigitAhead (rest : List Char) : Prop := ∀ c ∈ rest.head?, digitOfChar? c = none

/-- Every digit is a decimal digit. -/
def AreDigits (digits : List Nat) : Prop := ∀ d ∈ digits, d < 10

@[simp] theorem noDigitAhead_nil : NoDigitAhead [] := by simp [NoDigitAhead]

@[simp] theorem noDigitAhead_cons (c : Char) (rest : List Char) :
    NoDigitAhead (c :: rest) ↔ digitOfChar? c = none := by simp [NoDigitAhead]

@[simp] theorem areDigits_nil : AreDigits [] := by simp [AreDigits]

@[simp] theorem areDigits_cons (d : Nat) (digits : List Nat) :
    AreDigits (d :: digits) ↔ d < 10 ∧ AreDigits digits := by simp [AreDigits]

theorem digitOfChar?_digitChar {d : Nat} (h : d < 10) : digitOfChar? (digitChar d) = some d := by
  have hall : ∀ d < 10, digitOfChar? (digitChar d) = some d := by decide
  exact hall d h

/-- A character for a digit is not zero's, unless the digit is. -/
theorem digitChar_ne_zero {d : Nat} (h : d < 10) (hd : d ≠ 0) : digitChar d ≠ '0' := by
  intro hzero
  have := digitOfChar?_digitChar h
  rw [hzero] at this
  exact hd (Option.some.inj this).symm

@[simp] theorem digitText_cons (d : Nat) (digits : List Nat) :
    digitText (d :: digits) = digitChar d :: digitText digits := rfl

theorem spanDigits_of_noDigitAhead {rest : List Char} (h : NoDigitAhead rest) :
    spanDigits rest = ([], rest) := by
  cases rest with
  | nil => rfl
  | cons c rest => rw [spanDigits, (noDigitAhead_cons c rest).mp h]

/-- Digits are read as they were written. -/
theorem spanDigits_digitText_append {digits : List Nat} (h : AreDigits digits) {rest : List Char}
    (hrest : NoDigitAhead rest) : spanDigits (digitText digits ++ rest) = (digits, rest) := by
  induction digits with
  | nil => exact spanDigits_of_noDigitAhead hrest
  | cons d digits ih =>
    obtain ⟨hd, hdigits⟩ := (areDigits_cons d digits).mp h
    rw [digitText_cons, List.cons_append, spanDigits, digitOfChar?_digitChar hd]
    simp only [ih hdigits]

theorem areDigits_replicate_zero (k : Nat) : AreDigits (List.replicate k 0) := by
  intro d hd
  rw [List.eq_of_mem_replicate hd]
  decide

theorem areDigits_digitsOf (n : Nat) : AreDigits (digitsOf n) := by
  fun_induction digitsOf n with
  | case1 n h => simpa using h
  | case2 n h ih =>
    intro d hd
    rcases List.mem_append.mp hd with hd | hd
    · exact ih d hd
    · rw [List.mem_singleton.mp hd]
      exact Nat.mod_lt _ (by decide)

theorem digitsOf_ne_nil (n : Nat) : digitsOf n ≠ [] := by
  rw [digitsOf]
  split <;> simp

/-- Only zero starts with a zero. -/
theorem digitsOf_of_head?_eq_zero {n : Nat} (h : (digitsOf n).head? = some 0) :
    digitsOf n = [0] := by
  have hzero : n = 0 := by
    fun_induction digitsOf n with
    | case1 n _ => simpa using h
    | case2 n hn ih =>
      rw [List.head?_append_of_ne_nil _ (digitsOf_ne_nil _)] at h
      have := ih h
      omega
  rw [hzero, digitsOf, if_pos (by decide)]

/-- The digits of a number that is not zero do not start with a zero. -/
theorem head?_digitsOf_ne_zero {n : Nat} (h : 0 < n) : (digitsOf n).head? ≠ some 0 := by
  intro hzero
  have hdigits := ofDigits_digitsOf n
  rw [digitsOf_of_head?_eq_zero hzero] at hdigits
  simp [ofDigits] at hdigits
  omega

/-! ## The number of digits, and zeros around them -/

/-- A number with no more digits than some is less than a power of ten. -/
theorem length_digitsOf_le {n k : Nat} (hk : 0 < k) (h : n < 10 ^ k) :
    (digitsOf n).length ≤ k := by
  induction k generalizing n with
  | zero => omega
  | succ k ih =>
    rw [digitsOf]
    split
    · simp
    · have hdiv : n / 10 < 10 ^ k := Nat.div_lt_of_lt_mul (by rwa [Nat.mul_comm, ← Nat.pow_succ])
      have hpos : 0 < k := by
        rcases Nat.eq_zero_or_pos k with rfl | hpos
        · omega
        · exact hpos
      have hrest := ih hpos hdiv
      rw [List.length_append, List.length_singleton]
      omega

theorem lt_pow_length_digitsOf (n : Nat) : n < 10 ^ (digitsOf n).length := by
  fun_induction digitsOf n with
  | case1 n h => simpa using h
  | case2 n h ih =>
    rw [List.length_append, List.length_singleton, Nat.pow_succ]
    omega

/-- Zeros behind digits count as powers of ten. -/
theorem ofDigits_append_replicate_zero (digits : List Nat) (k : Nat) :
    ofDigits (digits ++ List.replicate k 0) = ofDigits digits * 10 ^ k := by
  induction k with
  | zero => simp
  | succ k ih =>
    rw [List.replicate_succ', ← List.append_assoc, ofDigits_append_single, ih, Nat.pow_succ]
    ring

/-- Zeros in front of digits do not count. -/
theorem ofDigits_replicate_zero_append (digits : List Nat) (k : Nat) :
    ofDigits (List.replicate k 0 ++ digits) = ofDigits digits := by
  have hzeros : ofDigits (List.replicate k 0) = 0 := by
    simpa [ofDigits] using ofDigits_append_replicate_zero [] k
  rw [ofDigits, List.foldl_append, ← ofDigits, hzeros, ← ofDigits]

end LiveDetection
