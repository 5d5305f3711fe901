import LiveDetection.Archive.Format
import LiveDetection.Track.Basic

/-!
# Summary payloads

The body of a segment summary is an archive of records. Records hold their locations and
properties as plain lists of entries, in which a frame or a key may occur more than once;
a track made from a record keeps the last entry of each.
-/

namespace LiveDetection

/-- An image location with its properties as entries. -/
structure LocationRecord where
  x : Int32
  y : Int32
  width : Int32
  height : Int32
  confidence : Single
  properties : List (String × String)
deriving DecidableEq

/-- A track with its locations and properties as entries. -/
structure TrackRecord where
  startFrame : Int32
  stopFrame : Int32
  confidence : Single
  locations : List (Int32 × LocationRecord)
  properties : List (String × String)
deriving DecidableEq

/-- The content of a segment summary: tracks in one or more responses. -/
structure SegmentPayload where
  segmentNumber : Int32
  responses : List (List TrackRecord)
deriving DecidableEq

open Archive

instance : Archived LocationRecord :=
  Archived.via (fun l => (l.x, l.y, l.width, l.height, l.confidence, l.properties))
    (fun (x, y, width, height, confidence, properties) =>
      ⟨x, y, width, height, confidence, properties⟩)

instance : Archived TrackRecord :=
  Archived.via (fun t => (t.startFrame, t.stopFrame, t.confidence, t.locations, t.properties))
    (fun (start, stop, confidence, locations, properties) =>
      ⟨start, stop, confidence, locations, properties⟩)

instance : Archived SegmentPayload :=
  Archived.via (fun p => (p.segmentNumber, p.responses)) (fun (segment, responses) =>
    ⟨segment, responses⟩)

/-- The record of a location. -/
def ImageLocation.toRecord (l : ImageLocation) : LocationRecord :=
  ⟨l.x, l.y, l.width, l.height, l.confidence, l.properties.entries⟩

/-- The location of a record. Of two properties with one key the last stays. -/
def LocationRecord.toLocation (r : LocationRecord) : ImageLocation :=
  ⟨r.x, r.y, r.width, r.height, r.confidence, .ofList r.properties⟩

/-- The record of a track. -/
def Track.toRecord (t : Track) : TrackRecord :=
  ⟨t.startFrame, t.stopFrame, t.confidence,
    t.locations.entries.map fun entry => (entry.1, entry.2.toRecord), t.properties.entries⟩

/-- The track of a record. Of two locations in one frame the last stays. -/
def TrackRecord.toTrack (r : TrackRecord) : Track :=
  ⟨r.startFrame, r.stopFrame, r.confidence,
    .ofList (r.locations.map fun entry => (entry.1, entry.2.toLocation)), .ofList r.properties⟩

namespace SegmentPayload

/-- The payload with all tracks in one response. -/
def ofTracks (segmentNumber : Int32) (tracks : List Track) : SegmentPayload :=
  ⟨segmentNumber, [tracks.map Track.toRecord]⟩

/-- The tracks of all responses, in order. -/
def tracks (p : SegmentPayload) : List Track :=
  p.responses.flatMap fun records => records.map TrackRecord.toTrack

end SegmentPayload

/-- A location is the location of its record. -/
@[simp] theorem ImageLocation.toLocation_toRecord (l : ImageLocation) :
    l.toRecord.toLocation = l := by
  simp [ImageLocation.toRecord, LocationRecord.toLocation, OrderedMap.ofList_entries]

/-- A track is the track of its record. -/
@[simp] theorem Track.toTrack_toRecord (t : Track) : t.toRecord.toTrack = t := by
  simp [Track.toRecord, TrackRecord.toTrack, Function.comp_def, OrderedMap.ofList_entries]

/-- The tracks of a payload are those that it was made of. -/
@[simp] theorem SegmentPayload.tracks_ofTracks (segmentNumber : Int32) (tracks : List Track) :
    (SegmentPayload.ofTracks segmentNumber tracks).tracks = tracks := by
  simp [SegmentPayload.ofTracks, SegmentPayload.tracks, Function.comp_def]

end LiveDetection
