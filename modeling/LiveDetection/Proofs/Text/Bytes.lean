import Mathlib.Data.List.Basic

/-!
# Texts as bytes

The bytes of a text are those of its characters, and a byte below 128 stands for the character
of the same number. So a text without control characters has no line end among its bytes.
-/

namespace LiveDetection

/-- The byte that ends a line. -/
def lineEnd : UInt8 := 0x0A

/-- Characters none of which is below the blank. -/
def Printable (chars : List Char) : Prop := ∀ c ∈ chars, 0x20 ≤ c.toNat

@[simp] theorem printable_nil : Printable [] := by simp [Printable]

@[simp] theorem printable_cons (c : Char) (chars : List Char) :
    Printable (c :: chars) ↔ 0x20 ≤ c.toNat ∧ Printable chars := by simp [Printable]

@[simp] theorem printable_append (front back : List Char) :
    Printable (front ++ back) ↔ Printable front ∧ Printable back := by
  simp only [Printable, List.forall_mem_append]

theorem printable_flatMap {α : Type} {f : α → List Char} {l : List α}
    (h : ∀ a ∈ l, Printable (f a)) : Printable (l.flatMap f) := by
  intro c hc
  obtain ⟨a, ha, hmem⟩ := List.mem_flatMap.mp hc
  exact h a ha c hmem

theorem byteArray_toList_loop (bytes : ByteArray) (i : Nat) (taken : List UInt8) :
    ByteArray.toList.loop bytes i taken = taken.reverse ++ bytes.data.toList.drop i := by
  fun_induction ByteArray.toList.loop bytes i taken with
  | case1 i taken h ih =>
    have hi : i < bytes.data.toList.length := by simpa using h
    have hget : bytes.get! i = bytes.data.toList[i] := by
      rw [ByteArray.get!, getElem!_pos bytes.data i (by simpa using h), Array.getElem_toList]
    rw [ih, List.drop_eq_getElem_cons hi, hget]
    simp
  | case2 i taken h =>
    have hi : bytes.data.toList.length ≤ i := by simpa using h
    rw [List.drop_eq_nil_of_le hi, List.append_nil]

theorem byteArray_toList (bytes : ByteArray) : bytes.toList = bytes.data.toList := by
  rw [ByteArray.toList, byteArray_toList_loop]
  rfl

/-- The bytes of a text are those of its characters. -/
theorem toList_toUTF8 (text : String) :
    text.toUTF8.toList = text.toList.flatMap String.utf8EncodeChar := by
  conv_lhs => rw [← String.ofList_toList (s := text)]
  rw [byteArray_toList, String.toUTF8_eq_toByteArray, String.toByteArray_ofList, List.utf8Encode,
    List.toList_data_toByteArray]

/-- The bytes of a text are the bytes of this text. -/
theorem fromUTF8?_toList_toUTF8 (text : String) :
    String.fromUTF8? ⟨text.toUTF8.toList.toArray⟩ = some text := by
  have hbytes : (⟨text.toUTF8.toList.toArray⟩ : ByteArray) = text.toByteArray := by
    rw [byteArray_toList]
    rfl
  rw [hbytes, String.fromUTF8?, dif_pos text.isValidUTF8]
  rfl

/-- A byte of a character is the number of the character, or it is at least 128. It is never one
of the last eight bytes. -/
theorem toNat_of_mem_utf8EncodeChar {c : Char} {b : UInt8} (h : b ∈ String.utf8EncodeChar c) :
    (b.toNat = c.toNat ∨ 0x80 ≤ b.toNat) ∧ b.toNat < 0xF8 := by
  have hlarge (n : Nat) (hb : b = UInt8.ofNat n) (hn : 0x80 ≤ n) (hlast : n < 0xF8) :
      (b.toNat = c.toNat ∨ 0x80 ≤ b.toNat) ∧ b.toNat < 0xF8 := by
    rw [hb, UInt8.toNat_ofNat', Nat.mod_eq_of_lt (by omega)]
    exact ⟨.inr hn, hlast⟩
  unfold String.utf8EncodeChar at h
  simp only at h
  split at h
  · rename_i hc
    rw [List.mem_singleton.mp h, UInt8.toNat_ofNat', Nat.mod_eq_of_lt (by omega)]
    exact ⟨.inl rfl, by omega⟩
  · split at h
    · simp only [List.mem_cons, List.not_mem_nil, or_false] at h
      rcases h with h | h <;> exact hlarge _ h (by omega) (by omega)
    · split at h <;> simp only [List.mem_cons, List.not_mem_nil, or_false] at h
      · rcases h with h | h | h <;> exact hlarge _ h (by omega) (by omega)
      · rcases h with h | h | h | h <;> exact hlarge _ h (by omega) (by omega)

/-- A text without control characters has no line end among its bytes. -/
theorem lineEnd_not_mem_toUTF8 {text : String} (h : Printable text.toList) :
    lineEnd ∉ text.toUTF8.toList := by
  rw [toList_toUTF8]
  intro hmem
  obtain ⟨c, hc, hbyte⟩ := List.mem_flatMap.mp hmem
  have hnumber : lineEnd.toNat = 0x0A := rfl
  have hchar := (toNat_of_mem_utf8EncodeChar hbyte).1
  have hblank := h c hc
  omega

/-- Lines with their ends are split at the ends. Nothing stands behind the last one. -/
theorem splitOn_flatMap_lineEnd {lines : List (List UInt8)} (h : ∀ line ∈ lines, lineEnd ∉ line) :
    (lines.flatMap (· ++ [lineEnd])).splitOn lineEnd = lines ++ [[]] := by
  induction lines with
  | nil => rfl
  | cons line lines ih =>
    rw [List.flatMap_cons, List.append_assoc, List.singleton_append,
      List.splitOn_append_cons_self_of_not_mem (h line (by simp)),
      ih fun l hl => h l (List.mem_cons_of_mem line hl)]
    rfl

end LiveDetection
