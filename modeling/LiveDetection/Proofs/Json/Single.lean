import LiveDetection.Proofs.Json.Form
import LiveDetection.Proofs.Json.Scaling
import LiveDetection.Proofs.Number.Ends

/-!
# Single-precision values read back

A finite value is read from its number bit by bit, although it is rounded three times on the way.
The decimal of the number lies in the interval of the value, and two roundings at double precision
do not move it out of there. Where they might, the digits are simply read. A value that is not
finite has no number and is not read back.
-/

namespace LiveDetection.Json

namespace Number

/-! ## The number of a decimal -/

/-- What the number of a decimal is like. -/
structure Spells (n : Number) (digits : ℕ) (power : ℤ) : Prop where
  wellFormed : n.WellFormed
  value_eq : n.value = digits * 10 ^ power
  modest : n.IsModest

/-- A number whose digits are those of a decimal, with few digits and a small power of ten. -/
theorem Spells.of_word_eq {n : Number} {digits : ℕ} {power : ℤ} (hwell : n.WellFormed)
    (hinteger : n.fraction ≠ [] ∨ n.exponent ≠ none)
    (hexponent : ∀ e ∈ n.exponent, ofDigits e.digits < exponentLimit) (hpos : 0 < digits)
    (hlt : digits < 10 ^ 10) (hpower : power.natAbs ≤ 60) (hword : n.word = digits)
    (htens : n.tens = power) : n.Spells digits power where
  wellFormed := hwell
  value_eq := by rw [value, hword, htens]
  modest := ⟨hword ▸ hpos, hword ▸ hlt.trans (by decide), htens ▸ hpower, hexponent, hinteger⟩

/-- The digits of a number with a point behind some of them do not start with a zero. -/
theorem wellFormed_split (negative : Bool) {digits : ℕ} (hpos : 0 < digits) {k : ℕ} (hk : k ≠ 0)
    {exponent : Option Exponent} (h : ∀ e ∈ exponent, e.digits ≠ [] ∧ AreDigits e.digits) :
    Number.WellFormed ⟨negative, (digitsOf digits).take k, (digitsOf digits).drop k, exponent⟩ where
  areDigits_whole d hd := areDigits_digitsOf digits d (List.mem_of_mem_take hd)
  whole_ne_nil := by
    simp only [ne_eq, List.take_eq_nil_iff, not_or]
    exact ⟨hk, digitsOf_ne_nil _⟩
  whole_of_head? hzero := by
    rw [List.head?_take, if_neg hk] at hzero
    exact absurd hzero (head?_digitsOf_ne_zero hpos)
  areDigits_fraction d hd := areDigits_digitsOf digits d (List.mem_of_mem_drop hd)
  areDigits_exponent := h

theorem word_split (negative : Bool) (digits k : ℕ) (exponent : Option Exponent) :
    Number.word ⟨negative, (digitsOf digits).take k, (digitsOf digits).drop k, exponent⟩ =
      digits := by
  rw [word, List.take_append_drop, ofDigits_digitsOf]

/-- A number between zero and one. -/
theorem spells_positional_of_nonpos (negative : Bool) {digits : ℕ} (hpos : 0 < digits)
    (hlt : digits < 10 ^ 10) {point : ℤ} (hlow : -6 < point) (hpoint : point ≤ 0) :
    (positional negative (digitsOf digits) point).Spells digits
      (point - (digitsOf digits).length) := by
  have hlength := length_digitsOf_le (by decide) hlt
  rw [positional, if_pos hpoint]
  have hfraction : AreDigits (List.replicate (-point).toNat 0 ++ digitsOf digits) := by
    intro d hd
    rcases List.mem_append.mp hd with hd | hd
    · exact areDigits_replicate_zero _ d hd
    · exact areDigits_digitsOf _ d hd
  have hne : List.replicate (-point).toNat 0 ++ digitsOf digits ≠ [] :=
    List.append_ne_nil_of_right_ne_nil _ (digitsOf_ne_nil _)
  refine .of_word_eq ⟨by simp, by simp, by simp, hfraction, by simp⟩ (.inl hne) (by simp) hpos hlt
    (by omega) ?_ ?_
  · rw [word, ← List.append_assoc, ← List.replicate_one, List.replicate_append_replicate,
      ofDigits_replicate_zero_append, ofDigits_digitsOf]
  · simp only [tens, givenTens, List.length_append, List.length_replicate]
    omega

/-- A number with digits on both sides of the point. -/
theorem spells_positional_of_lt_length (negative : Bool) {digits : ℕ} (hpos : 0 < digits)
    (hlt : digits < 10 ^ 10) {point : ℕ} (hpoint : point ≠ 0)
    (hlength : point < (digitsOf digits).length) :
    (positional negative (digitsOf digits) point).Spells digits
      (point - (digitsOf digits).length) := by
  have hlength' := length_digitsOf_le (by decide) hlt
  rw [positional, if_neg (by omega), Int.toNat_natCast, if_pos hlength]
  refine .of_word_eq (wellFormed_split _ hpos hpoint (by simp)) (.inl (by simpa using hlength))
    (by simp) hpos hlt (by omega) (word_split _ _ _ _) ?_
  simp only [tens, givenTens, List.length_drop]
  omega

/-- A whole number. -/
theorem spells_positional_of_length_le (negative : Bool) {digits : ℕ} (hpos : 0 < digits)
    {point : ℕ} (hhigh : point ≤ 13) (hlength : (digitsOf digits).length ≤ point) :
    (positional negative (digitsOf digits) point).Spells digits
      (point - (digitsOf digits).length) := by
  have hone : 0 < (digitsOf digits).length := List.length_pos_iff.mpr (digitsOf_ne_nil _)
  rw [positional, if_neg (by omega), Int.toNat_natCast, if_neg (by omega)]
  have hword : Number.word ⟨negative,
      digitsOf digits ++ List.replicate (point - (digitsOf digits).length) 0, [0], none⟩ =
      digits * 10 ^ (point - (digitsOf digits).length + 1) := by
    rw [word, List.append_assoc, ← List.replicate_one, List.replicate_append_replicate,
      ofDigits_append_replicate_zero, ofDigits_digitsOf]
  have htens : Number.tens ⟨negative,
      digitsOf digits ++ List.replicate (point - (digitsOf digits).length) 0, [0], none⟩ = -1 := by
    simp [tens, givenTens]
  refine ⟨⟨?_, ?_, ?_, by simp, by simp⟩, ?_, ⟨?_, ?_, by rw [htens]; decide, by simp, by simp⟩⟩
  · intro d hd
    rcases List.mem_append.mp hd with hd | hd
    · exact areDigits_digitsOf _ d hd
    · exact areDigits_replicate_zero _ d hd
  · exact List.append_ne_nil_of_left_ne_nil (digitsOf_ne_nil _) _
  · intro hzero
    rw [List.head?_append_of_ne_nil _ (digitsOf_ne_nil _)] at hzero
    exact absurd hzero (head?_digitsOf_ne_zero hpos)
  · rw [value, hword, htens, ← Nat.cast_sub hlength, zpow_natCast, pow_succ]
    push_cast
    ring
  · rw [hword]
    positivity
  · rw [hword]
    calc digits * 10 ^ (point - (digitsOf digits).length + 1)
        < 10 ^ (digitsOf digits).length * 10 ^ (point - (digitsOf digits).length + 1) :=
          Nat.mul_lt_mul_of_pos_right (lt_pow_length_digitsOf digits) (by positivity)
      _ = 10 ^ (point + 1) := by
          rw [← Nat.pow_add]
          congr 1
          omega
      _ ≤ 10 ^ 14 := Nat.pow_le_pow_right (by decide) (by omega)

/-- A number with a power of ten. -/
theorem spells_scientific (negative : Bool) {digits : ℕ} (hpos : 0 < digits)
    (hlt : digits < 10 ^ 10) {power : ℤ} (hlow : -54 ≤ power) (hhigh : power ≤ 51) :
    (scientific negative (digitsOf digits) (power + (digitsOf digits).length - 1)).Spells digits
      power := by
  have hlength := length_digitsOf_le (by decide) hlt
  have hone : 0 < (digitsOf digits).length := List.length_pos_iff.mpr (digitsOf_ne_nil _)
  rw [scientific]
  generalize hgiven : power + (digitsOf digits).length - 1 = given
  refine .of_word_eq (wellFormed_split _ hpos one_ne_zero ?_) (by simp) ?_ hpos hlt (by omega)
    (word_split _ _ _ _) ?_
  · rintro e he
    cases he
    exact ⟨digitsOf_ne_nil _, areDigits_digitsOf _⟩
  · rintro e he
    cases he
    rw [ofDigits_digitsOf, exponentLimit]
    omega
  · simp only [tens, givenTens, List.length_drop, ofDigits_digitsOf, decide_eq_true_eq]
    split <;> omega

theorem negative_positional (negative : Bool) (digits : List ℕ) (point : ℤ) :
    (positional negative digits point).negative = negative := by
  rw [positional]
  split
  · rfl
  · split <;> rfl

/-- The number of a positive finite value spells its decimal. -/
theorem spells_ofSingle {x : Single} (hx : x.isFinite) (hpos : x.magnitude.mantissa ≠ 0) :
    (ofSingle x).negative = x.negative ∧
      (ofSingle x).Spells x.shortest.digits x.shortest.exponent := by
  obtain ⟨-, hdigits, hle, hlow, hhigh, -⟩ := Single.shortens_shortest hx hpos
  have hlt : x.shortest.digits < 10 ^ 10 := hle.trans_lt (by decide)
  simp only [ofSingle, if_neg hdigits.ne']
  generalize x.shortest.digits = digits at *
  generalize x.shortest.exponent = power at *
  split
  · rename_i hpoint
    refine ⟨negative_positional _ _ _, ?_⟩
    have hpower : power = power + (digitsOf digits).length - (digitsOf digits).length := by ring
    generalize power + (digitsOf digits).length = point at *
    rw [hpower]
    by_cases hnonpos : point ≤ 0
    · exact spells_positional_of_nonpos _ hdigits hlt hpoint.1 hnonpos
    · obtain ⟨k, rfl⟩ := Int.eq_ofNat_of_zero_le (show 0 ≤ point by omega)
      by_cases hlength : k < (digitsOf digits).length
      · exact spells_positional_of_lt_length _ hdigits hlt (by omega) hlength
      · exact spells_positional_of_length_le _ hdigits (by omega) (not_lt.mp hlength)
  · exact ⟨rfl, spells_scientific _ hdigits hlt hlow hhigh⟩

/-! ## Numbers read back -/

/-- A power of ten that is a multiple of a power of two has few digits. -/
theorem natAbs_le_of_mul_eq {w n : ℕ} {i j : ℤ} (hw : 0 < w) (hn : 0 < n) (hwlt : w < 5 ^ 22)
    (hnlt : n < 5 ^ 22) (h : (w : ℚ) * 10 ^ i = n * 2 ^ j) : i.natAbs ≤ 22 := by
  have hnat := Nat.compare_eq_eq.mp (compareScaled_eq_eq.mpr h)
  simp only [Nat.pow_eq] at hnat
  have hfive {a b : ℕ} (k : ℕ) (hb : 0 < b) (hlt : b < 5 ^ 22) (hdvd : 5 ^ k ∣ b * 2 ^ a) :
      k ≤ 22 := by
    have hcoprime : Nat.Coprime (5 ^ k) (2 ^ a) := Nat.Coprime.pow _ _ (by decide)
    have hle := (Nat.le_of_dvd hb (hcoprime.dvd_of_dvd_mul_right hdvd)).trans_lt hlt
    exact ((Nat.pow_lt_pow_iff_right (by decide)).mp hle).le
  have hten (k : ℕ) : 5 ^ k ∣ 10 ^ k := pow_dvd_pow_of_dvd (by decide) k
  rcases le_total 0 i with hi | hi
  · rw [show (-i).toNat = 0 by omega, pow_zero, mul_one] at hnat
    refine hfive (a := j.toNat) _ hn hnlt (hnat ▸ ?_)
    rw [show i.natAbs = i.toNat by omega]
    exact Dvd.dvd.mul_right (Dvd.dvd.mul_left (hten _) _) _
  · rw [show i.toNat = 0 by omega, pow_zero, mul_one] at hnat
    refine hfive (a := (-j).toNat) _ hw hwlt (hnat ▸ ?_)
    rw [show i.natAbs = (-i).toNat by omega]
    exact Dvd.dvd.mul_left (hten _) _

/-- The digits of the exceptional magnitude are read well enough. -/
theorem toSingle?_ofSingle_of_exceptional {x : Single}
    (h : x.magnitudeBits = Single.exceptionalBits) : (ofSingle x).toSingle? = some x := by
  obtain ⟨bits⟩ := x
  have hbits : bits = 0x15AE43FD ∨ bits = 0x95AE43FD := by
    simp only [Single.magnitudeBits, Single.exceptionalBits] at h
    have hlt := bits.toNat_lt
    rw [← UInt32.toNat_inj, ← UInt32.toNat_inj]
    simp only [UInt32.toNat_ofNat]
    omega
  rcases hbits with rfl | rfl
  · decide +kernel
  · decide +kernel

theorem ofSingle_of_zero {x : Single} (hzero : x.magnitude.mantissa = 0) :
    ofSingle x = ⟨x.negative, [0], [0], none⟩ := by
  simp [ofSingle, Single.shortest, hzero]

/-- A zero is read with its sign. -/
theorem toSingle?_ofSingle_of_zero {x : Single} (hx : x.isFinite)
    (hzero : x.magnitude.mantissa = 0) : (ofSingle x).toSingle? = some x := by
  have hread (negative : Bool) : Number.toSingle? ⟨negative, [0], [0], none⟩ =
      some (.ofMagnitude negative (some ⟨0, -149⟩)) := by
    cases negative <;> decide +kernel
  rw [ofSingle_of_zero hzero, hread]
  congr 1
  refine Single.ofMagnitude_eq ?_
  obtain ⟨m, q, hparts⟩ := Single.exists_hasParts hx
  have hnormal := hparts.least_or_normal
  rw [hparts.magnitude_eq] at hzero
  simp only at hzero
  rw [hparts.bits_eq]
  show (-149 + 149 : ℤ).toNat * 0x800000 + 0 = _
  omega

/-- A finite value is read from its number. -/
theorem toSingle?_ofSingle {x : Single} (hx : x.isFinite) : (ofSingle x).toSingle? = some x := by
  by_cases hzero : x.magnitude.mantissa = 0
  · exact toSingle?_ofSingle_of_zero hx hzero
  obtain ⟨hnegative, -, hvalue, hmodest⟩ := spells_ofSingle hx hzero
  obtain ⟨g, hread, hnear, hexact⟩ := hmodest.exists_toSingle?
  have hshortens := Single.shortens_shortest hx hzero
  have hdecimal : (ofSingle x).value = x.shortest.value := hvalue
  -- A value with few binary digits is also one with a small power of ten.
  have hshort (n : ℕ) (j : ℤ) (hn : n ≤ denominatorLimit) (heq : x.shortest.value = n * 2 ^ j) :
      g.value = x.shortest.value := by
    rw [← hdecimal] at heq ⊢
    have hnpos : 0 < n := by
      have hpositive := hshortens.covers.pos hzero
      rw [← hdecimal, heq] at hpositive
      exact_mod_cast (mul_pos_iff_of_pos_right (by positivity)).mp hpositive
    exact hexact (natAbs_le_of_mul_eq hmodest.word_pos hnpos (hmodest.word_lt.trans (by decide))
      (hn.trans_lt (by decide)) heq) ⟨n, j, heq, hn.trans_lt (by decide)⟩
  rw [hdecimal] at hnear
  rcases hshortens.covers_of_near hx hzero hnear hshort with hcovers | hexceptional
  · rw [hread, hnegative, Single.ofMagnitude_roundDyadic hx hzero hcovers]
  · exact toSingle?_ofSingle_of_exceptional hexceptional

/-- The number of a finite value is read as it is written. -/
theorem wellFormed_ofSingle {x : Single} (hx : x.isFinite) : (ofSingle x).WellFormed := by
  by_cases hzero : x.magnitude.mantissa = 0
  · rw [ofSingle_of_zero hzero]
    exact ⟨by simp, by simp, by simp, by simp, by simp⟩
  · exact (spells_ofSingle hx hzero).2.wellFormed

end Number

/-- Every value stands in a tree in a form that is read as it is written. -/
theorem wellFormed_singleValue (x : Single) : (singleValue x).WellFormed := by
  rw [singleValue]
  split
  · rename_i hx
    exact .number (Number.wellFormed_ofSingle hx)
  · exact .null

/-- The values that are read back are the finite ones. -/
theorem single?_singleValue (x : Single) :
    single? (singleValue x) = if x.isFinite then some x else none := by
  rw [singleValue]
  split
  · rename_i hx
    exact Number.toSingle?_ofSingle hx
  · rfl

end LiveDetection.Json
