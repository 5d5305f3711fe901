import LiveDetection.Message.Payload
import LiveDetection.Proofs.Archive.RoundTrip

/-!
# Payloads read back

The records of a payload lie in archives field by field, in the order of their fields. A
payload with an archive is read back from it as it was, with the entries of all records in
their order and repeated frames and keys kept apart.
-/

namespace LiveDetection

open Archive

instance : Layout LocationRecord :=
  Layout.via fun l => (l.x, l.y, l.width, l.height, l.confidence, l.properties)

instance : Layout TrackRecord :=
  Layout.via fun t => (t.startFrame, t.stopFrame, t.confidence, t.locations, t.properties)

instance : Layout SegmentPayload := Layout.via fun p => (p.segmentNumber, p.responses)

instance : LawfulArchived LocationRecord := LawfulArchived.via _ _ fun _ => rfl
instance : LawfulArchived TrackRecord := LawfulArchived.via _ _ fun _ => rfl
instance : LawfulArchived SegmentPayload := LawfulArchived.via _ _ fun _ => rfl

namespace SegmentPayload

/-- The archive of a payload is read back as the payload, whatever its texts and bit patterns
are and however often a frame or a key occurs in it; and it is laid out as the format says, with
the image of the payload at the end and all that the image points to in aligned blocks before
it, each behind the blocks that it points to itself. -/
theorem decode?_eq_and_laidOut {p : SegmentPayload} {archive : List UInt8}
    (h : encode? p = some archive) : decode? archive = some p ∧ LaidOut archive p :=
  ⟨decode?_encode? h, laidOut_of_encode? h⟩

/-- A payload with repeated frames and keys, an undefined confidence, texts on both sides of
the inline limit, and responses without tracks. -/
def sample : SegmentPayload where
  segmentNumber := -1
  responses :=
    let place (key : String) : LocationRecord :=
      ⟨-1, 2, 3, -4, ⟨0xFFC00001⟩, [(key, "eight by"), (key, "nine byte")]⟩
    [[], [⟨5, 3, ⟨0x80000000⟩, [(4, place ""), (3, place "Größe"), (4, place "größer als 8")],
      [("k", ""), ("k", "\n")]⟩], []]

/-- The archive of the sample payload exists, is laid out and reads back. -/
theorem laidOut_sample : ∃ archive, encode? sample = some archive ∧
    decode? archive = some sample ∧ LaidOut archive sample := by
  have hsome : (encode? sample).isSome := by decide +kernel
  obtain ⟨archive, harchive⟩ := Option.isSome_iff_exists.mp hsome
  exact ⟨archive, harchive, decode?_eq_and_laidOut harchive⟩

end SegmentPayload

end LiveDetection
