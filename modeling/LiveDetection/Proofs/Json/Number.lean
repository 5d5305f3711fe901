import LiveDetection.Json.Number
import LiveDetection.Proofs.Number.Digits
import LiveDetection.Proofs.Text.Bytes

/-!
# JSON numbers read back

A number is read as it was written up to a character that could not go on with it. An integer
is the integer of its number.
-/

namespace LiveDetection.Json

/-- A number that is read as it is written. -/
structure Number.WellFormed (n : Number) : Prop where
  areDigits_whole : AreDigits n.whole
  whole_ne_nil : n.whole ≠ []
  /-- Only zero starts with a zero. -/
  whole_of_head? : n.whole.head? = some 0 → n.whole = [0]
  areDigits_fraction : AreDigits n.fraction
  areDigits_exponent : ∀ e ∈ n.exponent, e.digits ≠ [] ∧ AreDigits e.digits

/-- What follows does not go on with a number. -/
def EndsNumber (rest : List Char) : Prop :=
  NoDigitAhead rest ∧ ∀ c ∈ rest.head?, c ≠ '.' ∧ c ≠ 'e' ∧ c ≠ 'E'

@[simp] theorem endsNumber_nil : EndsNumber [] := by simp [EndsNumber]

/-- The characters that follow a value end a number. -/
theorem endsNumber_cons {c : Char} (h : c ∈ [',', ']', '}']) (rest : List Char) :
    EndsNumber (c :: rest) := by
  have hother : digitOfChar? c = none ∧ c ≠ '.' ∧ c ≠ 'e' ∧ c ≠ 'E' := by
    simp only [List.mem_cons, List.not_mem_nil, or_false] at h
    rcases h with rfl | rfl | rfl <;> decide
  exact ⟨(noDigitAhead_cons c rest).mpr hother.1, by simpa using hother.2⟩

/-- The sign is read when what follows has none. -/
theorem readSign_append (negative : Bool) {rest : List Char} (h : rest.head? ≠ some '-') :
    readSign ((if negative then ['-'] else []) ++ rest) = (negative, rest) := by
  cases negative with
  | true => rfl
  | false =>
    simp only [Bool.false_eq_true, if_false, List.nil_append]
    rw [readSign]
    rintro tail rfl
    exact h rfl

/-- The digits before the point are read when no digit follows. -/
theorem readWhole_append {n : Number} (h : n.WellFormed) {rest : List Char}
    (hrest : NoDigitAhead rest) : readWhole (digitText n.whole ++ rest) = some (n.whole, rest) := by
  obtain ⟨d, tail, hwhole⟩ := List.exists_cons_of_ne_nil h.whole_ne_nil
  have hdigits := h.areDigits_whole
  rw [hwhole] at hdigits ⊢
  by_cases hd : d = 0
  · have htail : tail = [] := by
      have := h.whole_of_head? (by rw [hwhole, hd]; rfl)
      rw [hwhole] at this
      exact (List.cons.inj this).2
    subst hd htail
    show readWhole ('0' :: rest) = _
    rw [readWhole, spanDigits_of_noDigitAhead hrest, if_pos rfl]
  · have hfirst := digitChar_ne_zero ((areDigits_cons d tail).mp hdigits).1 hd
    have hspan := spanDigits_digitText_append hdigits hrest
    rw [digitText_cons, List.cons_append] at hspan ⊢
    rw [readWhole, hspan]
    · simp
    · rintro _ hcons
      exact hfirst (List.cons.inj hcons).1

/-- The digits after the point are read when neither a digit nor a point follows. -/
theorem readFraction_append {digits : List Nat} (h : AreDigits digits) {rest : List Char}
    (hrest : NoDigitAhead rest) (hpoint : rest.head? ≠ some '.') :
    readFraction ((if digits = [] then [] else '.' :: digitText digits) ++ rest) =
      some (digits, rest) := by
  by_cases hdigits : digits = []
  · rw [if_pos hdigits, List.nil_append, hdigits, readFraction]
    rintro tail rfl
    exact hpoint rfl
  · rw [if_neg hdigits, List.cons_append, readFraction, spanDigits_digitText_append h hrest,
      if_neg hdigits]

theorem takeSign_append (negative : Bool) (rest : List Char) :
    takeSign ((if negative then '-' else '+') :: rest) = (negative, rest) := by
  cases negative <;> rfl

/-- The power of ten is read when nothing follows that goes on with it. -/
theorem readExponent_append {exponent : Option Exponent}
    (h : ∀ e ∈ exponent, e.digits ≠ [] ∧ AreDigits e.digits) {rest : List Char}
    (hrest : EndsNumber rest) :
    readExponent (writeExponent exponent ++ rest) = some (exponent, rest) := by
  cases exponent with
  | none =>
    rw [writeExponent, List.nil_append]
    cases rest with
    | nil => rfl
    | cons c rest =>
      obtain ⟨-, he, hE⟩ := hrest.2 c (by simp)
      simp [readExponent, he, hE]
  | some e =>
    obtain ⟨hne, hdigits⟩ := h e rfl
    rw [writeExponent, List.cons_append, List.cons_append, readExponent, if_pos (.inl rfl)]
    simp only [takeSign_append, spanDigits_digitText_append hdigits hrest.1, if_neg hne]

theorem noDigitAhead_writeExponent_append (exponent : Option Exponent) {rest : List Char}
    (hrest : NoDigitAhead rest) : NoDigitAhead (writeExponent exponent ++ rest) := by
  cases exponent with
  | none => exact hrest
  | some e => exact (noDigitAhead_cons _ _).mpr (by decide)

/-- A number is read as it was written, when nothing follows that goes on with it. -/
theorem readNumber_writeNumber_append {n : Number} (h : n.WellFormed) {rest : List Char}
    (hrest : EndsNumber rest) : readNumber (writeNumber n ++ rest) = some (n, rest) := by
  -- Each part ends where the next one begins, so what stands ahead of each is looked at from the
  -- end of the number to its front.
  have hexponent : NoDigitAhead (writeExponent n.exponent ++ rest) :=
    noDigitAhead_writeExponent_append _ hrest.1
  have hpoint : (writeExponent n.exponent ++ rest).head? ≠ some '.' := by
    intro hhead
    cases he : n.exponent with
    | none =>
      rw [he] at hhead
      exact (hrest.2 '.' hhead).1 rfl
    | some e =>
      rw [he] at hhead
      exact absurd (Option.some.inj hhead) (by decide)
  have hfraction : NoDigitAhead ((if n.fraction = [] then [] else '.' :: digitText n.fraction) ++
      (writeExponent n.exponent ++ rest)) := by
    by_cases hnil : n.fraction = []
    · rwa [if_pos hnil]
    · rw [if_neg hnil]
      exact (noDigitAhead_cons _ _).mpr (by decide)
  have hsign (s : List Char) : (digitText n.whole ++ s).head? ≠ some '-' := by
    obtain ⟨d, tail, hwhole⟩ := List.exists_cons_of_ne_nil h.whole_ne_nil
    have hd : d < 10 := h.areDigits_whole d (by simp [hwhole])
    intro hhead
    rw [hwhole] at hhead
    have hread := digitOfChar?_digitChar hd
    have hminus : digitOfChar? '-' = none := by decide
    rw [Option.some.inj hhead, hminus] at hread
    cases hread
  simp only [readNumber, writeNumber, List.append_assoc, readSign_append _ (hsign _),
    readWhole_append h hfraction, readFraction_append h.areDigits_fraction hexponent hpoint,
    readExponent_append h.areDigits_exponent hrest, Option.bind_eq_bind, Option.bind_some]
  rfl

theorem printable_digitText {digits : List Nat} (h : AreDigits digits) :
    Printable (digitText digits) := by
  have hall : ∀ d < 10, 0x20 ≤ (digitChar d).toNat := by decide
  intro c hc
  obtain ⟨d, hd, rfl⟩ := List.mem_map.mp hc
  exact hall d (h d hd)

/-- A number is written without control characters. -/
theorem printable_writeNumber {n : Number} (h : n.WellFormed) : Printable (writeNumber n) := by
  have hsign : Printable (if n.negative then ['-'] else []) := by split <;> simp
  have hfraction : Printable (if n.fraction = [] then [] else '.' :: digitText n.fraction) := by
    split
    · exact printable_nil
    · simp [printable_digitText h.areDigits_fraction]
  have hexponent : Printable (writeExponent n.exponent) := by
    cases he : n.exponent with
    | none => exact printable_nil
    | some e =>
      have hdigits := printable_digitText (h.areDigits_exponent e he).2
      cases hneg : e.negative <;> simp [writeExponent, hneg, hdigits]
  simp [writeNumber, hsign, hfraction, hexponent, printable_digitText h.areDigits_whole]

namespace Number

theorem wellFormed_ofInt (z : Int) : (ofInt z).WellFormed where
  areDigits_whole := areDigits_digitsOf _
  whole_ne_nil := digitsOf_ne_nil _
  whole_of_head? := digitsOf_of_head?_eq_zero
  areDigits_fraction := areDigits_nil
  areDigits_exponent := by simp [ofInt]

/-- The number of an integer is read as the integer. -/
@[simp] theorem toInt?_ofInt (z : Int) : (ofInt z).toInt? = some z := by
  have hdigits : ofDigits (digitsOf z.natAbs) = z.natAbs := ofDigits_digitsOf _
  rw [toInt?, if_pos ⟨rfl, rfl⟩]
  simp only [ofInt, hdigits]
  by_cases hneg : z < 0
  · obtain ⟨k, hk⟩ : ∃ k, z.natAbs = k + 1 := ⟨z.natAbs - 1, by omega⟩
    simp only [hneg, decide_true, hk]
    congr 1
    omega
  · simp only [hneg, decide_false]
    congr 1
    omega

end Number

end LiveDetection.Json
