import LiveDetection.Capture.Program

/-!
# The blocks in the output of a program

A program writes its output in bursts, and a reader takes it in blocks of one size. Where the bursts
end makes no difference: the blocks are those of the whole output, one behind the other, and the
bytes behind the last whole block are in none of them.
-/

namespace LiveDetection

/-- All that a program writes. -/
def outputOf (bursts : List Burst) : List UInt8 := bursts.flatMap (·.data)

/-- Block number `k` of some bytes, if there are enough for it. -/
def blockAt? (size : Nat) (bytes : List UInt8) (k : Nat) : Option (List UInt8) :=
  if (k + 1) * size ≤ bytes.length then some ((bytes.drop (k * size)).take size) else none

/-- Behind the first block, all blocks have moved up by one. -/
theorem blockAt?_succ {size : Nat} {bytes : List UInt8} (h : size ≤ bytes.length) (k : Nat) :
    blockAt? size bytes (k + 1) = blockAt? size (bytes.drop size) k := by
  have hroom : (k + 1 + 1) * size ≤ bytes.length ↔ (k + 1) * size ≤ bytes.length - size := by
    rw [Nat.succ_mul (k + 1)]
    omega
  have hoffset : size + k * size = (k + 1) * size := by
    rw [Nat.succ_mul, Nat.add_comm]
  simp only [blockAt?, hroom, List.length_drop, List.drop_drop, hoffset]

/-- If there are not enough bytes for a block, there are not enough for one behind it. -/
theorem blockAt?_eq_none {size : Nat} {bytes : List UInt8} (h : bytes.length < size) (k : Nat) :
    blockAt? size bytes k = none := by
  have hle : size ≤ (k + 1) * size := Nat.le_mul_of_pos_left size (Nat.succ_pos k)
  exact if_neg (by omega)

namespace Feed

variable {size : Nat} {bytes : List UInt8}

theorem cut_of_le (h : bytes.length ≤ size) : cut size bytes = ([], bytes) := by
  rw [cut, if_pos h]

theorem cut_of_lt (h : size < bytes.length) :
    cut size bytes = (bytes.take (size + 1) :: (cut size (bytes.drop (size + 1))).1,
      (cut size (bytes.drop (size + 1))).2) := by
  rw [cut, if_neg (Nat.not_le_of_lt h)]

theorem length_snd_cut_le (bytes : List UInt8) : (cut size bytes).2.length ≤ size := by
  fun_induction cut size bytes with
  | case1 bytes h => exact h
  | case2 bytes h rest ih => exact ih

/-- Bytes that come in two parts are cut like all at once: what is left over of the first part goes
in front of the second. -/
theorem cut_append (front back : List UInt8) :
    (cut size (front ++ back)).1 =
      (cut size front).1 ++ (cut size ((cut size front).2 ++ back)).1 := by
  fun_induction cut size front with
  | case1 front h => rfl
  | case2 front h rest ih =>
    have hlong : size < (front ++ back).length := by
      rw [List.length_append]
      omega
    rw [cut_of_lt hlong, List.take_append_of_le_length (by omega),
      List.drop_append_of_le_length (by omega), ih]
    rfl

/-- The blocks of a feed are those of all that was and is written, in whatever bursts. -/
theorem data_ofBursts (now : Nat) (pending : List UInt8) (bursts : List Burst)
    (hpending : pending.length ≤ size) :
    (ofBursts size now pending bursts).blocks.map (·.data) =
      (cut size (pending ++ outputOf bursts)).1 := by
  induction bursts generalizing now pending with
  | nil => rw [outputOf, List.flatMap_nil, List.append_nil, cut_of_le hpending]; rfl
  | cons burst rest ih =>
    have hleft := @length_snd_cut_le size (pending ++ burst.data)
    rw [outputOf, List.flatMap_cons, ← List.append_assoc, cut_append]
    simp only [ofBursts, List.map_append, List.map_map, Function.comp_def, List.map_id',
      ih _ _ hleft]
    rfl

/-- The blocks of some bytes, by their number. -/
theorem getElem?_cut (bytes : List UInt8) (k : Nat) :
    (cut size bytes).1[k]? = blockAt? (size + 1) bytes k := by
  fun_induction cut size bytes generalizing k with
  | case1 bytes h => exact (blockAt?_eq_none (by omega) k).symm
  | case2 bytes h rest ih =>
    cases k with
    | zero =>
      have hroom : size + 1 ≤ bytes.length := by omega
      simp [blockAt?, hroom]
    | succ k =>
      rw [blockAt?_succ (by omega), ← ih]
      rfl

/-- There is a block if there are enough bytes for one. -/
theorem isSome_head?_cut {size : Nat} (hsize : 0 < size) :
    (cut (size - 1) bytes).1.head?.isSome ↔ size ≤ bytes.length := by
  have hsucc : size - 1 + 1 = size := Nat.sub_add_cancel hsize
  rw [List.head?_eq_getElem?, getElem?_cut, hsucc, blockAt?]
  by_cases hroom : size ≤ bytes.length <;> simp [hroom]

end Feed

end LiveDetection
