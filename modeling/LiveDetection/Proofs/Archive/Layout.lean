import LiveDetection.Proofs.Archive.Text

/-!
# The layout of archives

What it means that bytes are the archive of a value, said without the writer and without the
readers. An image stands at a position and takes up a fixed number of bytes there. What does
not fit stands in blocks, to which images point by a signed distance from themselves. Numbers
are little-endian, and lengths and distances have 32 bits. Blocks lie one behind the other,
each at a multiple of its alignment and behind the blocks that it points to, and the image of
the value itself is the last of them.
-/

namespace LiveDetection.Archive

/-- A stretch of the bytes, with the alignment that its start needs. -/
structure Block where
  start : Nat
  size : Nat
  align : Nat

/-- Blocks lie in a range, one behind the other, each at a multiple of its alignment. -/
def Stacked (low : Nat) : List Block → (high : Nat) → Prop
  | [], high => low ≤ high
  | b :: rest, high =>
    low ≤ b.start ∧ b.start % b.align = 0 ∧ Stacked (b.start + b.size) rest high

namespace Stacked

variable {low high : Nat} {first second : List Block}

theorem le (h : Stacked low first high) : low ≤ high := by
  induction first generalizing low with
  | nil => exact h
  | cons b rest ih =>
    obtain ⟨hlow, -, hrest⟩ := h
    have := ih hrest
    omega

theorem mono {low' high' : Nat} (h : Stacked low first high) (hlow : low' ≤ low)
    (hhigh : high ≤ high') : Stacked low' first high' := by
  induction first generalizing low low' with
  | nil => exact (hlow.trans h).trans hhigh
  | cons b rest ih => exact ⟨hlow.trans h.1, h.2.1, ih h.2.2 (le_refl _)⟩

/-- Blocks behind blocks are blocks behind some place between them. -/
theorem append_iff : Stacked low (first ++ second) high ↔
    ∃ middle, Stacked low first middle ∧ Stacked middle second high := by
  induction first generalizing low with
  | nil =>
    constructor
    · exact fun h => ⟨low, le_refl low, h⟩
    · rintro ⟨middle, hle, h⟩
      exact h.mono hle (le_refl _)
  | cons b rest ih =>
    simp only [List.cons_append, Stacked, ih]
    constructor
    · rintro ⟨hlow, halign, middle, hrest, h⟩
      exact ⟨middle, ⟨hlow, halign, hrest⟩, h⟩
    · rintro ⟨middle, ⟨hlow, halign, hrest⟩, h⟩
      exact ⟨hlow, halign, middle, hrest, h⟩

theorem append {middle : Nat} (h : Stacked low first middle) (h' : Stacked middle second high) :
    Stacked low (first ++ second) high :=
  append_iff.mpr ⟨middle, h, h'⟩

end Stacked

/-- The signed word at a place is the distance from a base to a destination. -/
def PointsTo (bytes : Array UInt8) (place base destination : Nat) : Prop :=
  ∃ part, offsetBytes? base destination = some part ∧ Holds bytes place part

/-- A type with a rule for how its values lie in archives. -/
class Layout (α : Type) where
  /-- The image of a value stands at a position, and the blocks are those that it points to,
  directly or from one block to another, each behind the blocks that it points to itself. -/
  LiesAt : Array UInt8 → (position : Nat) → α → List Block → Prop

open Layout (LiesAt)

variable {α β : Type}

/-- A 32-bit word has four bytes. -/
instance : Layout Int32 where
  LiesAt bytes position n blocks :=
    Holds bytes position (littleEndian 4 n.toUInt32.toNat) ∧ blocks = []

/-- A 64-bit word has eight bytes. -/
instance : Layout Int64 where
  LiesAt bytes position n blocks :=
    Holds bytes position (littleEndian 8 n.toUInt64.toNat) ∧ blocks = []

/-- A single-precision value stands as its bit pattern. -/
instance : Layout Single where
  LiesAt bytes position x blocks :=
    Holds bytes position (littleEndian 4 x.bits.toNat) ∧ blocks = []

instance : Layout UInt8 where
  LiesAt bytes position b blocks := bytes[position]? = some b ∧ blocks = []

/-- A text of up to eight bytes stands in its image and is filled up with bytes of all ones. A
longer one stands in a block of its own; the image says how long it is and where. -/
instance : Layout String where
  LiesAt bytes position text blocks :=
    if text.utf8ByteSize ≤ inlineLimit then
      Holds bytes position
          (bytesOf text ++ List.replicate (inlineLimit - text.utf8ByteSize) 0xFF) ∧
        blocks = []
    else
      text.utf8ByteSize < storedLimit ∧
        ∃ start, Holds bytes position (littleEndian 4 (lengthWord text.utf8ByteSize)) ∧
          PointsTo bytes (position + 4) position start ∧ Holds bytes start (bytesOf text) ∧
          blocks = [⟨start, text.utf8ByteSize, 1⟩]

/-- The images of values stand one behind the other. -/
def AllLieAt [Archived α] [Layout α] (bytes : Array UInt8) :
    (position : Nat) → List α → List Block → Prop
  | _, [], blocks => blocks = []
  | position, a :: rest, blocks =>
    ∃ first others, LiesAt bytes position a first ∧
      AllLieAt bytes (position + Archived.size α) rest others ∧ blocks = first ++ others

/-- The elements of a list stand in a block; the image says where, and how many they are. -/
instance [Archived α] [Layout α] : Layout (List α) where
  LiesAt bytes position values blocks :=
    ∃ start inner, PointsTo bytes position position start ∧
      Holds bytes (position + 4) (littleEndian 4 values.length) ∧
      values.length < 256 ^ 4 ∧ AllLieAt bytes start values inner ∧
      blocks = inner ++ [⟨start, values.length * Archived.size α, Archived.align α⟩]

/-- The second of two values stands at the next multiple of its alignment. -/
instance [Archived α] [Archived β] [Layout α] [Layout β] : Layout (α × β) where
  LiesAt bytes position pair blocks :=
    ∃ first second, LiesAt bytes position pair.1 first ∧
      LiesAt bytes (position + alignUp (Archived.size α) (Archived.align β)) pair.2 second ∧
      blocks = first ++ second

/-- A byte says whether the value is there. -/
instance [Archived α] [Layout α] : Layout (Option α) where
  LiesAt bytes position value blocks :=
    match value with
    | none => bytes[position]? = some 0 ∧ blocks = []
    | some a =>
      bytes[position]? = some 1 ∧
        LiesAt bytes (position + alignUp 1 (Archived.align α)) a blocks

/-- A value that lies in archives as the value of another type. -/
abbrev Layout.via [Layout β] (view : α → β) : Layout α where
  LiesAt bytes position a := LiesAt bytes position (view a)

/-- The bytes are an archive of a value: they end with its image, and before it lie the blocks
that it points to. -/
def LaidOut [Archived α] [Layout α] (archive : List UInt8) (a : α) : Prop :=
  ∃ blocks, LiesAt archive.toArray (archive.length - Archived.size α) a blocks ∧
    Stacked 0
      (blocks ++ [⟨archive.length - Archived.size α, Archived.size α, Archived.align α⟩])
      archive.length

end LiveDetection.Archive
