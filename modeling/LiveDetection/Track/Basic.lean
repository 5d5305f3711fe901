import LiveDetection.Data.OrderedMap
import LiveDetection.Number.Single

/-!
# Tracks

What a detection component finds: image locations, tracks of locations over a range of
frames, and the results for sound and other media. Properties and locations are kept in
key order.
-/

namespace LiveDetection

/-- Named values. -/
abbrev Properties := OrderedMap String String

/-- A rectangle of an image, with the confidence that it shows something. -/
structure ImageLocation where
  x : Int32
  y : Int32
  width : Int32
  height : Int32
  confidence : Single
  properties : Properties := .empty
deriving DecidableEq

/-- Neither side of the rectangle is negative. -/
def ImageLocation.hasExtent (l : ImageLocation) : Bool :=
  decide (0 ≤ l.width) && decide (0 ≤ l.height)

/-- A detection over a range of frames, with a location for some of them. -/
structure Track where
  startFrame : Int32
  stopFrame : Int32
  confidence : Single
  locations : OrderedMap Int32 ImageLocation := .empty
  properties : Properties := .empty
deriving DecidableEq

/-- The range is not empty and holds the frame of every location. -/
def Track.Consistent (t : Track) : Prop :=
  t.startFrame ≤ t.stopFrame ∧
    ∀ frame ∈ t.locations.keys, t.startFrame ≤ frame ∧ frame ≤ t.stopFrame

instance (t : Track) : Decidable t.Consistent :=
  inferInstanceAs (Decidable (_ ∧ _))

/-- A detection over a stretch of sound, in milliseconds. -/
structure AudioTrack where
  startTime : Int32
  stopTime : Int32
  confidence : Single
  properties : Properties := .empty
deriving DecidableEq

/-- A detection in a medium without place or time. -/
structure GenericTrack where
  confidence : Single
  properties : Properties := .empty
deriving DecidableEq

end LiveDetection
