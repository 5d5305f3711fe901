import LiveDetection.Track.Basic

/-!
# Track repair

Components may report outside the segment they were given. Repair keeps the locations
that lie in the segment and have a valid size. A track that keeps locations spans exactly
its first to its last location; a track without locations is cut to the segment, and a
track of which nothing is left is dropped.
-/

namespace LiveDetection

namespace Track

/-- The locations that lie in a range of frames and have a valid size. -/
def locationsWithin (t : Track) (start stop : Int32) : OrderedMap Int32 ImageLocation :=
  t.locations.filter fun frame location =>
    decide (start ≤ frame) && decide (frame ≤ stop) && location.hasExtent

/-- The range of frames that a repaired track covers. -/
def rangeWithin (t : Track) (start stop : Int32) : Int32 × Int32 :=
  match (t.locationsWithin start stop).first?, (t.locationsWithin start stop).last? with
  | some first, some last => (first.1, last.1)
  | _, _ => (if t.startFrame < start then start else t.startFrame,
             if stop < t.stopFrame then stop else t.stopFrame)

/-- The track inside a range of frames, or `none` when nothing of it lies there. -/
def repair? (start stop : Int32) (t : Track) : Option Track :=
  let range := t.rangeWithin start stop
  if range.2 < range.1 then none
  else
    some { t with
      startFrame := range.1
      stopFrame := range.2
      locations := t.locationsWithin start stop }

end Track

/-- All tracks inside a range of frames, in their order. -/
def repairTracks (tracks : List Track) (start stop : Int32) : List Track :=
  tracks.filterMap (Track.repair? start stop)

end LiveDetection
