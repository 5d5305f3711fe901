import LiveDetection.Archive.Format
import Mathlib.Algebra.Group.Nat.Defs
import Mathlib.Data.List.Infix

/-!
# Reading what was written

Where an archive holds the bytes of a number, of an offset or of a text, the readers find
them again and leave the free range alone.
-/

namespace LiveDetection.Archive

open Reader

/-- The bytes from a position on begin with a part. -/
def Holds (bytes : Array UInt8) (position : Nat) (part : List UInt8) : Prop :=
  ∀ i, i < part.length → bytes[position + i]? = part[i]?

namespace Holds

variable {bytes : Array UInt8} {position : Nat} {front back part : List UInt8}

theorem left (h : Holds bytes position (front ++ back)) : Holds bytes position front := by
  intro i hi
  rw [h i (by simp only [List.length_append]; omega), List.getElem?_append_left hi]

theorem right (h : Holds bytes position (front ++ back)) :
    Holds bytes (position + front.length) back := by
  intro i hi
  have hback := h (front.length + i) (by simp only [List.length_append]; omega)
  rw [List.getElem?_append_right (by omega), Nat.add_sub_cancel_left] at hback
  rwa [Nat.add_assoc]

theorem head {b : UInt8} (h : Holds bytes position (b :: back)) :
    bytes[position]? = some b := by
  simpa using h 0 (by simp)

theorem tail {b : UInt8} (h : Holds bytes position (b :: back)) :
    Holds bytes (position + 1) back := by
  have hcons : Holds bytes position ([b] ++ back) := h
  exact hcons.right

/-- What follows a beginning of the archive stands at the end of that beginning. -/
theorem of_written {written : Array UInt8} (h : written.toList ++ part <+: bytes.toList) :
    Holds bytes written.size part := by
  intro i hi
  obtain ⟨rest, hrest⟩ := h
  rw [← Array.getElem?_toList, ← hrest, List.append_assoc,
    List.getElem?_append_right (by simp)]
  simp only [Array.length_toList, Nat.add_sub_cancel_left]
  exact List.getElem?_append_left hi

end Holds

@[simp] theorem length_littleEndian (width n : Nat) : (littleEndian width n).length = width := by
  induction width generalizing n with
  | zero => rfl
  | succ width ih => simp [littleEndian, ih]

variable {bytes : Array UInt8} {position : Nat} {part : List UInt8}

theorem run_natAt {width n : Nat} (h : Holds bytes position (littleEndian width n))
    (hn : n < 256 ^ width) (free : FreeRange) :
    natAt position width bytes free = some (n, free) := by
  induction width generalizing position n with
  | zero =>
    have : n = 0 := by simpa using hn
    simp [natAt, this]
  | succ width ih =>
    have hrest : n / 256 < 256 ^ width := by
      rw [Nat.pow_succ] at hn
      exact Nat.div_lt_of_lt_mul (by rwa [Nat.mul_comm])
    rw [littleEndian] at h
    simp only [natAt, run_bind, run_byteAt h.head, ih h.tail hrest, Option.bind_some, run_pure]
    have hsplit : (UInt8.ofNat n).toNat + 256 * (n / 256) = n := by
      rw [UInt8.toNat_ofNat']
      omega
    rw [hsplit]

theorem run_bytesAt (h : Holds bytes position part) (free : FreeRange) :
    bytesAt position part.length bytes free = some (part, free) := by
  induction part generalizing position with
  | nil => rfl
  | cons b part ih =>
    simp only [List.length_cons, bytesAt, run_bind, run_byteAt h.head, ih h.tail,
      Option.bind_some, run_pure]

@[simp] theorem length_of_offsetBytes? {source destination : Nat}
    (h : offsetBytes? source destination = some part) : part.length = 4 := by
  simp only [offsetBytes?, Option.ite_none_right_eq_some, Option.some.injEq] at h
  rw [← h.2, length_littleEndian]

/-- A part that an offset reaches backwards is not further away than a signed word allows. -/
theorem le_of_offsetBytes? {source destination : Nat}
    (h : offsetBytes? source destination = some part) : source ≤ destination + 0x80000000 := by
  simp only [offsetBytes?, Option.ite_none_right_eq_some] at h
  omega

/-- An offset that was written leads back to its destination. -/
theorem run_target {source destination place : Nat}
    (hoffset : offsetBytes? source destination = some part) (h : Holds bytes place part)
    (free : FreeRange) :
    target source place bytes free = some (destination, free) := by
  simp only [offsetBytes?, Option.ite_none_right_eq_some, Option.some.injEq] at hoffset
  obtain ⟨⟨hlow, hhigh⟩, rfl⟩ := hoffset
  have hword : (((destination : Int) - source) % 0x100000000).toNat < 256 ^ 4 := by omega
  simp only [target, run_bind, run_natAt h hword, Option.bind_some]
  have hposition : (source : Int) +
      (if (((destination : Int) - source) % 0x100000000).toNat < 0x80000000
        then ((((destination : Int) - source) % 0x100000000).toNat : Int)
        else ((((destination : Int) - source) % 0x100000000).toNat : Int) - 0x100000000) =
      destination := by
    split <;> omega
  rw [hposition, run_ensure (by omega)]
  rfl

end LiveDetection.Archive
