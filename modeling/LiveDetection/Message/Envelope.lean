import LiveDetection.Archive.Format
import LiveDetection.Message.Basic

/-!
# Envelopes

On a socket every message travels in an envelope that names its queue: a length of four
bytes, least significant byte first, and an archive of that many bytes.
-/

namespace LiveDetection

open Archive Archive.Reader

/-- The bytes before the payload of a word or a text in the image of a property value. -/
def valueGap : Nat := 4

/-- A property value: a byte for its type, then the value at the next multiple of its own
alignment. -/
instance : Archived PropertyValue where
  size := 16
  align := 8
  Anchor := Nat
  store
    | .string text, written => Archived.store text written
    | _, written => some (written.size, written)
  image value anchor position :=
    match value with
    | .string text =>
      (Archived.image text anchor (position + valueGap)).map fun image =>
        0 :: List.replicate 3 0 ++ image ++ List.replicate 4 0
    | .int n =>
      some (1 :: List.replicate 3 0 ++ littleEndian 4 n.toUInt32.toNat ++ List.replicate 8 0)
    | .long n => some (2 :: List.replicate 7 0 ++ littleEndian 8 n.toUInt64.toNat)
  load position := do
    match ← byteAt position with
    | 0 => return .string (← Archived.load (position + valueGap))
    | 1 => return .int (← Archived.load (position + valueGap))
    | 2 => return .long (← Archived.load (position + 2 * valueGap))
    | _ => invalid

instance : Archived Property :=
  Archived.via (fun p => (p.name, p.value)) (fun (name, value) => ⟨name, value⟩)

instance : Archived Message :=
  Archived.via (fun m => (m.properties, m.body)) (fun (properties, body) => ⟨properties, body⟩)

/-- A message addressed to a queue. -/
structure Envelope where
  queue : String
  message : Message
deriving DecidableEq

instance : Archived Envelope :=
  Archived.via (fun e => (e.queue, e.message)) (fun (queue, message) => ⟨queue, message⟩)

namespace Envelope

/-- The length prefix and the archive, if there is one. -/
def frame? (e : Envelope) : Option (List UInt8) :=
  (encode? e).map fun archive => littleEndian 4 archive.length ++ archive

/-- The envelope of an archive without its length prefix. -/
def ofArchive? (archive : List UInt8) : Option Envelope := decode? archive

/-- The length that a prefix of four bytes announces. -/
def lengthOf (lengthBytes : List UInt8) : Nat :=
  lengthBytes.foldr (fun b n => b.toNat + 256 * n) 0

end Envelope

end LiveDetection
