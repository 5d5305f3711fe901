import LiveDetection.Proofs.Archive.Reading
import LiveDetection.Proofs.Text.Bytes

/-!
# Texts in archives

No text has a byte of all ones, so the end of a text inside an image is certain; and no
text begins with the bit pattern that marks the length word of a text stored outside.
-/

namespace LiveDetection.Archive

open Reader

/-- The bytes of a text. -/
def bytesOf (text : String) : List UInt8 := text.toUTF8.data.toList

@[simp] theorem length_bytesOf (text : String) : (bytesOf text).length = text.utf8ByteSize := by
  simp [bytesOf, ByteArray.size_data]

theorem bytesOf_eq (text : String) : bytesOf text = text.toUTF8.toList :=
  (byteArray_toList _).symm

theorem ne_ones_of_mem_bytesOf {text : String} {b : UInt8} (h : b ∈ bytesOf text) : b ≠ 0xFF := by
  rw [bytesOf_eq, toList_toUTF8] at h
  obtain ⟨c, -, hc⟩ := List.mem_flatMap.mp h
  rintro rfl
  exact absurd (toNat_of_mem_utf8EncodeChar hc).2 (by decide)

private theorem mark_ne_of_isUTF8FirstByte {b : UInt8} (h : b.IsUTF8FirstByte) :
    b &&& 0xC0 ≠ 0x80 := by
  intro hmark
  have hsub : ∀ mask : UInt8, mask &&& 0xC0 = 0xC0 → b &&& 0xC0 = b &&& mask &&& 0xC0 := by
    intro mask hmask
    rw [UInt8.and_assoc, hmask]
  rcases h with h | h | h | h
  · have hhigh : b &&& 0xC0 &&& 0x80 = b &&& 0x80 := by rw [UInt8.and_assoc]; rfl
    rw [hmark, h] at hhigh
    exact absurd hhigh (by decide)
  · rw [hsub 0xE0 (by decide), h] at hmark
    exact absurd hmark (by decide)
  · rw [hsub 0xF0 (by decide), h] at hmark
    exact absurd hmark (by decide)
  · rw [hsub 0xF8 (by decide), h] at hmark
    exact absurd hmark (by decide)

/-- A text does not begin with the mark of a length word. -/
theorem mark_ne_of_head_bytesOf {text : String} {b : UInt8} {rest : List UInt8}
    (h : bytesOf text = b :: rest) : b &&& 0xC0 ≠ 0x80 := by
  have hsize : 0 < text.toByteArray.size := by
    have := congrArg List.length h
    simp [← String.size_toByteArray] at this
    omega
  have hfirst := text.isValidUTF8.isUTF8FirstByte_getElem_zero hsize
  have hb : text.toByteArray[0] = b := by
    have hget : text.toByteArray.data[0]? = some b := by
      rw [← Array.getElem?_toList]
      exact congrArg (·[0]?) h
    exact (Array.getElem?_eq_some_iff.mp hget).2
  exact mark_ne_of_isUTF8FirstByte (hb ▸ hfirst)

/-- The bytes of a text are valid, and they are the bytes of that text only. -/
@[simp] theorem textOf_bytesOf (text : String) : textOf (bytesOf text) = pure text := by
  rw [textOf, bytesOf_eq, fromUTF8?_toList_toUTF8]

theorem takeWhile_bytesOf (text : String) (n : Nat) :
    (bytesOf text ++ List.replicate n 0xFF).takeWhile (· ≠ 0xFF) = bytesOf text := by
  rw [List.takeWhile_append_of_pos fun b hb => by simpa using ne_ones_of_mem_bytesOf hb]
  cases n <;> simp [List.replicate_succ]

theorem lengthWord_lt {n : Nat} (h : n < storedLimit) : lengthWord n < 256 ^ 4 := by
  simp only [storedLimit] at h
  simp only [lengthWord]
  omega

@[simp] theorem lengthOfWord_lengthWord (n : Nat) : lengthOfWord (lengthWord n) = n := by
  simp only [lengthOfWord, lengthWord]
  omega

/-- A length word begins with the mark. -/
theorem mark_lengthWord (n : Nat) : UInt8.ofNat (lengthWord n) &&& 0xC0 = 0x80 := by
  have hlow : UInt8.ofNat (lengthWord n) = UInt8.ofNat (n % 64 + 128) := by
    apply UInt8.toNat_inj.mp
    simp only [UInt8.toNat_ofNat', lengthWord]
    omega
  have hmark : ∀ r < 64, UInt8.ofNat (r + 128) &&& 0xC0 = 0x80 := by decide
  rw [hlow]
  exact hmark _ (Nat.mod_lt _ (by decide))

end LiveDetection.Archive
