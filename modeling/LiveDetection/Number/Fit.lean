/-!
# Integers that fit a word

Numbers read from text and sums of words fit their target type or are refused; nothing
wraps silently.
-/

namespace LiveDetection

/-- The 32-bit signed word with value `n`, if there is one. -/
def int32OfInt? (n : Int) : Option Int32 :=
  if Int32.minValue.toInt ≤ n ∧ n ≤ Int32.maxValue.toInt then some (Int32.ofInt n) else none

/-- The 64-bit signed word with value `n`, if there is one. -/
def int64OfInt? (n : Int) : Option Int64 :=
  if Int64.minValue.toInt ≤ n ∧ n ≤ Int64.maxValue.toInt then some (Int64.ofInt n) else none

/-- The 64-bit unsigned word with value `n`, if there is one. -/
def uint64OfInt? (n : Int) : Option UInt64 :=
  if 0 ≤ n ∧ n < UInt64.size then some (UInt64.ofNat n.toNat) else none

/-- The byte with value `n`, if there is one. -/
def byteOfInt? (n : Int) : Option UInt8 :=
  if 0 ≤ n ∧ n < UInt8.size then some (UInt8.ofNat n.toNat) else none

/-- The sum of two words, if it is a word. -/
def addInt32? (a b : Int32) : Option Int32 :=
  int32OfInt? (a.toInt + b.toInt)

/-- The difference of two words, if it is a word. -/
def subInt32? (a b : Int32) : Option Int32 :=
  int32OfInt? (a.toInt - b.toInt)

/-- A word that fits has the value that was asked for. -/
theorem toInt_of_int32OfInt?_eq_some {n : Int} {w : Int32} (h : int32OfInt? n = some w) :
    w.toInt = n := by
  unfold int32OfInt? at h
  split at h
  · rename_i hn
    cases h
    rw [Int32.toInt_minValue, Int32.toInt_maxValue] at hn
    exact Int32.toInt_ofInt_of_le hn.1 (Int.lt_of_le_sub_one hn.2)
  · cases h

/-- The word before one that is not negative. -/
theorem toInt_pred {w : Int32} (h : 0 ≤ w) : (w - 1).toInt = w.toInt - 1 := by
  have hnonneg : (0 : Int) ≤ w.toInt := by simpa using Int32.le_iff_toInt_le.mp h
  have hlt := w.toInt_lt
  rw [Int32.toInt_sub, Int32.toInt_one]
  exact Int.bmod_eq_of_le (by omega) (by omega)

/-- The word behind one that is not the greatest. -/
theorem toInt_succ {w : Int32} (h : w < Int32.maxValue) : (w + 1).toInt = w.toInt + 1 := by
  have hlt := Int32.lt_iff_toInt_lt.mp h
  have habove := w.le_toInt
  rw [Int32.toInt_maxValue] at hlt
  rw [Int32.toInt_add, Int32.toInt_one]
  exact Int.bmod_eq_of_le (by omega) (by omega)

/-- Every word is the word of its own value. -/
@[simp] theorem int32OfInt?_toInt (w : Int32) : int32OfInt? w.toInt = some w := by
  unfold int32OfInt?
  rw [if_pos ⟨w.minValue_le_toInt, w.toInt_le⟩, Int32.ofInt_toInt]

@[simp] theorem int64OfInt?_toInt (w : Int64) : int64OfInt? w.toInt = some w := by
  unfold int64OfInt?
  rw [if_pos ⟨w.minValue_le_toInt, w.toInt_le⟩, Int64.ofInt_toInt]

@[simp] theorem uint64OfInt?_toNat (w : UInt64) : uint64OfInt? w.toNat = some w := by
  have hfits : (0 : Int) ≤ w.toNat ∧ (w.toNat : Int) < UInt64.size :=
    ⟨Int.natCast_nonneg _, Int.ofNat_lt.mpr w.toNat_lt_size⟩
  rw [uint64OfInt?, if_pos hfits, Int.toNat_natCast, UInt64.ofNat_toNat]

@[simp] theorem byteOfInt?_toNat (b : UInt8) : byteOfInt? b.toNat = some b := by
  have hfits : (0 : Int) ≤ b.toNat ∧ (b.toNat : Int) < UInt8.size :=
    ⟨Int.natCast_nonneg _, Int.ofNat_lt.mpr b.toNat_lt_size⟩
  rw [byteOfInt?, if_pos hfits, Int.toNat_natCast, UInt8.ofNat_toNat]

end LiveDetection
