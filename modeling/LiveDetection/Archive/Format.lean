import LiveDetection.Archive.Reader
import LiveDetection.Number.Single

/-!
# The archive format

A value of an archived type has a fixed-size image. What does not fit the image, such as
the elements of a list or a long text, is stored before it, and the image points there by
an offset relative to itself. Writing is therefore post-order: first the parts of every
field, in field order, then, once its place is known, the image.

Images of records are the images of their fields one after another, each at a multiple of
its alignment. Gaps are written as zeros and ignored when read.

Offsets are signed words of 32 bits, and the length of a text has 30 bits. A value has no
archive when one of its texts is too long or one of its parts lies too far from its image.
-/

namespace LiveDetection.Archive

/-- The least multiple of `align` that is not less than `n`. -/
def alignUp (n align : Nat) : Nat := n + (align - n % align) % align

theorem le_alignUp (n align : Nat) : n ≤ alignUp n align := Nat.le_add_right _ _

theorem alignUp_mod (n : Nat) {align : Nat} (h : 0 < align) : alignUp n align % align = 0 := by
  have hlt := Nat.mod_lt n h
  have hsplit := Nat.div_add_mod n align
  have hsum : n + (align - n % align) = align * (n / align + 1) := by
    rw [Nat.mul_add, Nat.mul_one]
    omega
  rw [alignUp, Nat.add_mod_mod, hsum, Nat.mul_mod_right]

/-- The `width` low bytes of a number, least significant byte first. -/
def littleEndian : (width : Nat) → Nat → List UInt8
  | 0, _ => []
  | width + 1, n => UInt8.ofNat n :: littleEndian width (n / 256)

/-- The offset from one position to another as a signed 32-bit word, if it has one. -/
def offsetBytes? (source destination : Nat) : Option (List UInt8) :=
  let offset : Int := destination - source
  if -0x80000000 ≤ offset ∧ offset < 0x80000000 then
    some (littleEndian 4 (offset % 0x100000000).toNat)
  else none

/-- Zeros up to a multiple of an alignment. -/
def padTo (align : Nat) (written : Array UInt8) : Array UInt8 :=
  written ++ Array.replicate (alignUp written.size align - written.size) 0

@[simp] theorem size_padTo (align : Nat) (written : Array UInt8) :
    (padTo align written).size = alignUp written.size align := by
  simp only [padTo, Array.size_append, Array.size_replicate]
  exact Nat.add_sub_cancel' (le_alignUp _ _)

/-- A type whose values have archives. -/
class Archived (α : Type) where
  /-- The size of an image. -/
  size : Nat
  /-- Images start at multiples of this. -/
  align : Nat
  /-- Where the stored parts of a value are. -/
  Anchor : Type
  /-- Append the parts that do not fit the image, unless one of them is too large. -/
  store : α → Array UInt8 → Option (Anchor × Array UInt8)
  /-- The image at a position, for parts at the given places, unless one of them is too far. -/
  image : α → Anchor → Nat → Option (List UInt8)
  /-- Read the value whose image is at a position. -/
  load : Nat → Reader α

open Reader

/-- A 32-bit signed word. -/
instance : Archived Int32 where
  size := 4
  align := 4
  Anchor := Unit
  store _ written := some ((), written)
  image n _ _ := some (littleEndian 4 n.toUInt32.toNat)
  load position := return (UInt32.ofNat (← natAt position 4)).toInt32

/-- A 64-bit signed word. -/
instance : Archived Int64 where
  size := 8
  align := 8
  Anchor := Unit
  store _ written := some ((), written)
  image n _ _ := some (littleEndian 8 n.toUInt64.toNat)
  load position := return (UInt64.ofNat (← natAt position 8)).toInt64

/-- A single-precision value, as its bit pattern. -/
instance : Archived Single where
  size := 4
  align := 4
  Anchor := Unit
  store _ written := some ((), written)
  image x _ _ := some (littleEndian 4 x.bits.toNat)
  load position := return ⟨UInt32.ofNat (← natAt position 4)⟩

/-- A byte. -/
instance : Archived UInt8 where
  size := 1
  align := 1
  Anchor := Unit
  store _ written := some ((), written)
  image b _ _ := some [b]
  load position := byteAt position

/-- The longest text that an image holds, in bytes. -/
def inlineLimit : Nat := 8

/-- Stored texts are shorter than this, in bytes, so that their length has a word. -/
def storedLimit : Nat := 0x40000000

/-- The length word of a text outside of its image: the low six bits stay, bit 7 marks the
word, and the other bits move up by two. -/
def lengthWord (n : Nat) : Nat := n % 64 + 128 + (n / 64) * 256

/-- The length that a length word stands for. -/
def lengthOfWord (word : Nat) : Nat := word % 64 + (word / 256) * 64

/-- The text of some bytes, which have to be valid. -/
def textOf (bytes : List UInt8) : Reader String :=
  match String.fromUTF8? ⟨bytes.toArray⟩ with
  | some text => pure text
  | none => invalid

/-- A text. Up to eight bytes stand in the image, followed by bytes of all ones, which no text
contains. A longer text is stored outside. -/
instance : Archived String where
  size := 8
  align := 4
  Anchor := Nat
  store text written :=
    if text.utf8ByteSize ≤ inlineLimit then some (written.size, written)
    else if text.utf8ByteSize < storedLimit then
      some (written.size, written ++ text.toUTF8.data)
    else none
  image text anchor position :=
    let bytes := text.toUTF8.data.toList
    if bytes.length ≤ inlineLimit then
      some (bytes ++ List.replicate (inlineLimit - bytes.length) 0xFF)
    else
      (offsetBytes? position anchor).map (littleEndian 4 (lengthWord bytes.length) ++ ·)
  load position := do
    let first ← byteAt position
    if first &&& 0xC0 ≠ 0x80 then
      let bytes ← bytesAt position inlineLimit
      textOf (bytes.takeWhile (· ≠ 0xFF))
    else
      let length := lengthOfWord (← natAt position 4)
      ensure (inlineLimit < length)
      let start ← target position (position + 4)
      textOf (← block start length 1 (bytesAt start length))

variable {α β : Type}

/-- Store the parts of all values, first value first. -/
def storeAll [Archived α] :
    List α → Array UInt8 → Option (List (Archived.Anchor α) × Array UInt8)
  | [], written => some ([], written)
  | a :: rest, written => do
    let first ← Archived.store a written
    let others ← storeAll rest first.2
    return (first.1 :: others.1, others.2)

/-- The images of all values, one behind the other from a position on. -/
def imageAll [Archived α] :
    List α → List (Archived.Anchor α) → Nat → Option (List UInt8)
  | a :: rest, anchor :: anchors, position => do
    let first ← Archived.image a anchor position
    let others ← imageAll rest anchors (position + Archived.size α)
    return first ++ others
  | _, _, _ => some []

/-- Read `count` values whose images lie one behind the other. -/
def loadAll [Archived α] : (count : Nat) → Nat → Reader (List α)
  | 0, _ => pure []
  | count + 1, position => do
    let a ← Archived.load position
    let rest ← loadAll count (position + Archived.size α)
    pure (a :: rest)

/-- A list. Its images are stored outside in one block, also when there are none. -/
instance [Archived α] : Archived (List α) where
  size := 8
  align := 4
  Anchor := Nat
  store values written := do
    let stored ← storeAll values written
    let padded := padTo (Archived.align α) stored.2
    let images ← imageAll values stored.1 padded.size
    return (padded.size, padded ++ images.toArray)
  image values anchor position :=
    (offsetBytes? position anchor).map (· ++ littleEndian 4 values.length)
  load position := do
    let start ← target position position
    let count ← natAt (position + 4) 4
    block start (count * Archived.size α) (Archived.align α) (loadAll count start)

/-- Two values one behind the other. -/
instance [Archived α] [Archived β] : Archived (α × β) where
  size :=
    alignUp (alignUp (Archived.size α) (Archived.align β) + Archived.size β)
      (max (Archived.align α) (Archived.align β))
  align := max (Archived.align α) (Archived.align β)
  Anchor := Archived.Anchor α × Archived.Anchor β
  store pair written := do
    let first ← Archived.store pair.1 written
    let second ← Archived.store pair.2 first.2
    return ((first.1, second.1), second.2)
  image pair anchor position := do
    let start := alignUp (Archived.size α) (Archived.align β)
    let used := start + Archived.size β
    let first ← Archived.image pair.1 anchor.1 position
    let second ← Archived.image pair.2 anchor.2 (position + start)
    return first ++ List.replicate (start - Archived.size α) 0 ++ second ++
      List.replicate (alignUp used (max (Archived.align α) (Archived.align β)) - used) 0
  load position := do
    let a ← Archived.load position
    let b ← Archived.load (position + alignUp (Archived.size α) (Archived.align β))
    pure (a, b)

/-- A value that is archived as the value of another type. -/
abbrev Archived.via [Archived β] (view : α → β) (build : β → α) : Archived α where
  size := Archived.size β
  align := Archived.align β
  Anchor := Archived.Anchor β
  store a := Archived.store (view a)
  image a := Archived.image (view a)
  load position := return build (← Archived.load position)

/-- A value that may be absent: a byte says whether it is there, and its place is kept. -/
instance [Archived α] : Archived (Option α) where
  size := alignUp 1 (Archived.align α) + Archived.size α
  align := Archived.align α
  Anchor := Option (Archived.Anchor α)
  store
    | none, written => some (none, written)
    | some a, written => (Archived.store a written).map fun stored => (some stored.1, stored.2)
  image
    | some a, some anchor, position =>
      let start := alignUp 1 (Archived.align α)
      (Archived.image a anchor (position + start)).map (1 :: List.replicate (start - 1) 0 ++ ·)
    | _, _, _ => some (List.replicate (alignUp 1 (Archived.align α) + Archived.size α) 0)
  load position := do
    match ← byteAt position with
    | 0 => pure none
    | 1 => return some (← Archived.load (position + alignUp 1 (Archived.align α)))
    | _ => invalid

/-- The archive of a value, if it has one. -/
def encode? [Archived α] (a : α) : Option (List UInt8) := do
  let stored ← Archived.store a #[]
  let padded := padTo (Archived.align α) stored.2
  let root ← Archived.image a stored.1 padded.size
  return padded.toList ++ root

/-- The value of an archive. All of the bytes count, and the root is at their end. -/
def decode? [Archived α] (bytes : List UInt8) : Option α :=
  runRoot bytes (Archived.size α) (Archived.align α) Archived.load

end LiveDetection.Archive
