import LiveDetection.Json.Text
import LiveDetection.Proofs.Text.Bytes
import Mathlib.Tactic.SplitIfs

/-!
# JSON texts read back

A unit is well formed when the writer puts nothing into a text that ends it or breaks it.
Well-formed units are read as they were written, whatever follows the text, and the units that
a text is spelled with are well formed and stand for its characters.
-/

namespace LiveDetection.Json

/-! ## Four hexadecimal digits -/

theorem digitIn?_digitFor {d : Nat} (h : d < 16) : digitIn? 16 (digitFor d) = some d := by
  have hall : ∀ d < 16, digitIn? 16 (digitFor d) = some d := by decide
  exact hall d h

/-- A code unit is read as it was written. -/
theorem ofRadixText?_hexDigits {unit : Nat} (h : unit < 0x10000) :
    ofRadixText? 16 (hexDigits unit) = some unit := by
  have hdigit (n : Nat) : digitIn? 16 (digitFor (n % 16)) = some (n % 16) :=
    digitIn?_digitFor (Nat.mod_lt _ (by decide))
  simp only [ofRadixText?, hexDigits, List.mapM_cons, List.mapM_nil, hdigit]
  simp [ofRadix]
  omega

theorem printable_hexDigits (unit : Nat) : Printable (hexDigits unit) := by
  have hdigit (n : Nat) : 0x20 ≤ (digitFor (n % 16)).toNat := by
    have hall : ∀ d < 16, 0x20 ≤ (digitFor d).toNat := by decide
    exact hall _ (Nat.mod_lt _ (by decide))
  simp [hexDigits, hdigit]

/-! ## Escapes of one letter -/

/-- Every escape is read as the character that it is written for. Its letter is not the one in
front of code units. -/
theorem of_escapeLetter?_eq_some {c letter : Char} (h : escapeLetter? c = some letter) :
    ofEscapeLetter? letter = some c ∧ letter ≠ 'u' ∧ 0x20 ≤ letter.toNat := by
  have hall : ∀ e ∈ letterEscapes,
      ofEscapeLetter? e.1 = some e.2 ∧ e.1 ≠ 'u' ∧ 0x20 ≤ e.1.toNat := by decide
  obtain ⟨e, hfind, rfl⟩ := Option.map_eq_some_iff.mp h
  have hc : e.2 = c := by simpa using List.find?_some hfind
  simpa [hc] using hall e (List.mem_of_find?_eq_some hfind)

/-! ## Units -/

/-- A unit that is read as it is written. -/
def TextUnit.WellFormed : TextUnit → Prop
  | .plain c => 0x20 ≤ c.toNat ∧ c ≠ '"' ∧ c ≠ '\\'
  | .escaped c => (escapeLetter? c).isSome
  | .coded unit => unit < 0x10000

/-- A unit at the front of a text is taken off. -/
theorem readUnits_writeUnit_append {unit : TextUnit} (h : unit.WellFormed) (rest : List Char) :
    readUnits (writeUnit unit ++ rest) =
      (readUnits rest).map fun read => (unit :: read.1, read.2) := by
  cases unit with
  | plain c =>
    obtain ⟨hblank, hquote, hescape⟩ := h
    rw [writeUnit, List.singleton_append, readUnits.eq_5 _ _ hquote (by simp [hescape])
      (by simp [hescape])]
    have hfine : ¬ (c.toNat < 0x20 ∨ c = '\\') := by simp only [hescape, or_false]; omega
    rw [if_neg hfine]
    cases readUnits rest <;> rfl
  | escaped c =>
    obtain ⟨letter, hletter⟩ := Option.isSome_iff_exists.mp h
    obtain ⟨hread, hu, -⟩ := of_escapeLetter?_eq_some hletter
    simp only [writeUnit, hletter, Option.getD_some, List.cons_append, List.nil_append]
    rw [readUnits.eq_4 _ _ (by simp [hu]), hread]
    cases readUnits rest <;> rfl
  | coded unit =>
    have hread := ofRadixText?_hexDigits h
    simp only [hexDigits] at hread
    simp only [writeUnit, hexDigits, List.cons_append, List.nil_append]
    rw [readUnits.eq_3, hread]
    cases readUnits rest <;> rfl

/-- Units between quotes are read as they were written, whatever follows the closing quote. -/
theorem readUnits_flatMap_writeUnit {units : List TextUnit} (h : ∀ u ∈ units, u.WellFormed)
    (rest : List Char) :
    readUnits (units.flatMap writeUnit ++ '"' :: rest) = some (units, rest) := by
  induction units with
  | nil => simp [readUnits]
  | cons unit units ih =>
    rw [List.flatMap_cons, List.append_assoc, readUnits_writeUnit_append (h unit (by simp)),
      ih fun u hu => h u (by simp [hu])]
    rfl

theorem printable_writeUnit {unit : TextUnit} (h : unit.WellFormed) :
    Printable (writeUnit unit) := by
  cases unit with
  | plain c => simpa [writeUnit] using h.1
  | escaped c =>
    obtain ⟨letter, hletter⟩ := Option.isSome_iff_exists.mp h
    simpa [writeUnit, hletter] using (of_escapeLetter?_eq_some hletter).2.2
  | coded unit => simp [writeUnit, printable_hexDigits]

/-- A text is written without control characters. -/
theorem printable_writeUnits {units : List TextUnit} (h : ∀ u ∈ units, u.WellFormed) :
    Printable (writeUnits units) := by
  have hunits := printable_flatMap fun u hu => printable_writeUnit (h u hu)
  simp [writeUnits, hunits]

/-! ## Spelling -/

/-- The unit of a character is well formed. -/
theorem wellFormed_spellChar (c : Char) : (spellChar c).WellFormed := by
  unfold spellChar
  split_ifs with hslash hescape hcontrol
  · subst hslash
    exact ⟨by decide, by decide, by decide⟩
  · exact hescape
  · exact Nat.lt_trans hcontrol (by decide)
  · refine ⟨Nat.not_lt.mp hcontrol, ?_, ?_⟩
    · rintro rfl
      exact hescape (by decide)
    · rintro rfl
      exact hescape (by decide)

theorem wellFormed_of_mem_spell {text : String} {unit : TextUnit} (h : unit ∈ spell text) :
    unit.WellFormed := by
  obtain ⟨c, -, rfl⟩ := List.mem_map.mp h
  exact wellFormed_spellChar c

/-- A code unit that is no surrogate stands for its character, whatever follows. -/
theorem assemble_coded_cons {unit : Nat} (h : unit < 0xD800) (rest : List TextUnit) :
    assemble (.coded unit :: rest) = (assemble rest).map (Char.ofNat unit :: ·) := by
  have hhigh : isHighSurrogate unit = false := by
    simp only [isHighSurrogate, Bool.and_eq_false_iff, decide_eq_false_iff_not]
    omega
  have hlow : isLowSurrogate unit = false := by
    simp only [isLowSurrogate, Bool.and_eq_false_iff, decide_eq_false_iff_not]
    omega
  rcases rest with _ | ⟨_ | _ | _, rest⟩ <;> simp [assemble, hhigh, hlow]

/-- The unit of a character stands for the character. -/
theorem assemble_spellChar_cons (c : Char) (rest : List TextUnit) :
    assemble (spellChar c :: rest) = (assemble rest).map (c :: ·) := by
  unfold spellChar
  split_ifs with hslash hescape hcontrol
  · rw [assemble]
  · rw [assemble]
  · rw [assemble_coded_cons (Nat.lt_trans hcontrol (by decide)), Char.ofNat_toNat]
  · rw [assemble]

/-- The units of a text stand for the text. -/
@[simp] theorem text?_spell (text : String) : TextUnit.text? (spell text) = some text := by
  have hassemble (chars : List Char) : assemble (chars.map spellChar) = some chars := by
    induction chars with
    | nil => rfl
    | cons c chars ih => rw [List.map_cons, assemble_spellChar_cons, ih]; rfl
  rw [TextUnit.text?, spell, hassemble, Option.map_some, String.ofList_toList]

end LiveDetection.Json
