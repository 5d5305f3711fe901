/-!
# Reading archives

An archive is read in place, by position. A reader holds the range of bytes that is still
free. Every block of an archive lies in the free range, starts at a multiple of its
alignment, and is preceded by the blocks that it points to: while a block is read, only
the bytes before it are free, and afterwards only the bytes behind it. So blocks never
overlap, and every block is read once.
-/

namespace LiveDetection.Archive

/-- The bytes from `low` up to `high` are free. -/
structure FreeRange where
  low : Nat
  high : Nat
deriving DecidableEq, Repr

/-- A reader of archive bytes. It has no result when the bytes are not an archive. -/
abbrev Reader (α : Type) : Type := ReaderT (Array UInt8) (StateT FreeRange Option) α

namespace Reader

/-- The archive is not valid. -/
def invalid {α : Type} : Reader α := fun _ _ => none

/-- Go on only if a condition holds. -/
def ensure (condition : Prop) [Decidable condition] : Reader Unit :=
  if condition then pure () else invalid

variable {α β : Type}

@[simp] theorem run_pure (a : α) (bytes : Array UInt8) (free : FreeRange) :
    (pure a : Reader α) bytes free = some (a, free) := rfl

/-- The continuation reads on with what the first reader left free. -/
@[simp] theorem run_bind (r : Reader α) (f : α → Reader β) (bytes : Array UInt8)
    (free : FreeRange) :
    (r >>= f) bytes free = (r bytes free).bind fun s => f s.1 bytes s.2 := rfl

/-- A condition that holds changes nothing. -/
theorem run_ensure {condition : Prop} [Decidable condition] (h : condition)
    (bytes : Array UInt8) (free : FreeRange) :
    ensure condition bytes free = some ((), free) := by
  simp [ensure, h]

/-- The byte at a position. -/
def byteAt (position : Nat) : Reader UInt8 := do
  match (← read)[position]? with
  | some b => pure b
  | none => invalid

/-- A byte that is there is read. -/
theorem run_byteAt {position : Nat} {bytes : Array UInt8} {b : UInt8}
    (h : bytes[position]? = some b) (free : FreeRange) :
    byteAt position bytes free = some (b, free) := by
  change (match bytes[position]? with
    | some b => pure b
    | none => invalid : Reader UInt8) bytes free = _
  rw [h]
  rfl

/-- The natural number in `width` bytes from a position on, least significant byte first. -/
def natAt (position : Nat) : (width : Nat) → Reader Nat
  | 0 => pure 0
  | width + 1 => do
    let b ← byteAt position
    let rest ← natAt (position + 1) width
    pure (b.toNat + 256 * rest)

/-- The bytes from a position on. -/
def bytesAt (position : Nat) : (count : Nat) → Reader (List UInt8)
  | 0 => pure []
  | count + 1 => do
    let b ← byteAt position
    let rest ← bytesAt (position + 1) count
    pure (b :: rest)

/-- The position that lies a stored offset away from a base. -/
def target (base offsetAt : Nat) : Reader Nat := do
  let offset ← natAt offsetAt 4
  let signed : Int := if offset < 0x80000000 then offset else (offset : Int) - 0x100000000
  let position : Int := base + signed
  ensure (0 ≤ position)
  pure position.toNat

/-- Read the block of `size` bytes at a position with a reader for its contents. -/
def block (position size align : Nat) (contents : Reader α) : Reader α := do
  let free ← get
  ensure (free.low ≤ position ∧ position + size ≤ free.high ∧ position % align = 0)
  set (FreeRange.mk free.low position)
  let value ← contents
  set (FreeRange.mk (position + size) free.high)
  pure value

/-- A block in the free range is read with the bytes before it free, and leaves free the bytes
behind it. -/
theorem run_block {position size align : Nat} {contents : Reader α} {bytes : Array UInt8}
    {free inner : FreeRange} {a : α} (hlow : free.low ≤ position)
    (hhigh : position + size ≤ free.high) (halign : position % align = 0)
    (h : contents bytes ⟨free.low, position⟩ = some (a, inner)) :
    block position size align contents bytes free = some (a, ⟨position + size, free.high⟩) := by
  have hfree : free.low ≤ position ∧ position + size ≤ free.high ∧ position % align = 0 :=
    ⟨hlow, hhigh, halign⟩
  have hget : (get : Reader FreeRange) bytes free = some (free, free) := rfl
  have hset : ∀ next old : FreeRange, (set next : Reader PUnit) bytes old = some ((), next) :=
    fun _ _ => rfl
  simp only [block, run_bind, run_pure, hget, run_ensure hfree, hset, h, Option.bind_some]

/-- Read all of the bytes as an archive whose last block is the root. -/
def runRoot (bytes : List UInt8) (size align : Nat) (contents : Nat → Reader α) :
    Option α :=
  let position := bytes.length - size
  (block position size align (contents position) bytes.toArray ⟨0, bytes.length⟩).map (·.1)

end Reader

end LiveDetection.Archive
