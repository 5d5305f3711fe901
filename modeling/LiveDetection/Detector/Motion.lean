import LiveDetection.Detector.Basic
import LiveDetection.Number.Fixed
import LiveDetection.Number.Reading
import LiveDetection.Text.Blank

/-!
# Motion

The motion component compares every frame with the one before it, across segments. A frame
has changed when the mean absolute difference of its bytes exceeds a threshold. Every run
of consecutive changed frames is one track, with a location for each of its frames that
covers all of the picture.
-/

namespace LiveDetection

/-- The motion component. -/
structure MotionDetector where
  runDirectory : Option String := none
  /-- The last frame seen. -/
  previous : Option Frame := none
deriving DecidableEq, Inhabited

namespace MotionDetector

/-- The job property that sets the threshold. -/
def thresholdProperty : String := "THRESHOLD"

/-- The threshold of jobs that set none. -/
def defaultThreshold : Single := .ofNat 12

/-- The property of a location that holds the difference. -/
def differenceProperty : String := "MEAN_DIFF"

/-- The distance of two bytes. -/
def byteDistance (a b : UInt8) : Nat := (a.toNat - b.toNat) + (b.toNat - a.toNat)

/-- The sum of the distances of the bytes of two frames. -/
def totalDifference (a b : List UInt8) : Nat := (List.zipWith byteDistance a b).foldl (· + ·) 0

/-- The mean absolute difference of two frames, if they have the same number of bytes and are
not empty. The total, the count and their quotient are each rounded. -/
def meanDifference? (a b : Frame) : Option Single :=
  if a.data.length ≠ b.data.length ∨ a.data = [] then none
  else
    some ((Single.ofNat (totalDifference a.data b.data)).divide (.ofNat a.data.length))

/-- The threshold of a job: a finite number that is not negative. -/
def threshold (job : VideoJob) : Except DetectionError Single :=
  match job.property? thresholdProperty with
  | none => .ok defaultThreshold
  | some raw =>
    match readSingle? (trimBlank raw) with
    | some t =>
      if t.isFinite ∧ ¬ t.lt .zero then .ok t
      else .error (.invalidProperty (thresholdProperty ++ "=" ++ raw))
    | none => .error (.invalidProperty (thresholdProperty ++ "=" ++ raw))

/-- How much a frame differs from the one before it, if that is more than the threshold. -/
def change? (limit : Single) (previous : Option Frame) (frame : Frame) : Option Single :=
  (previous.bind fun p => meanDifference? p frame).filter fun d => limit.lt d

/-- The confidence that a difference stands for. -/
def confidenceOf (difference : Single) : Single :=
  (difference.divide (.ofNat 255)).min .one

/-- The location of a changed frame. -/
def locationOf (frame : Frame) (difference : Single) : ImageLocation where
  x := 0
  y := 0
  width := frame.width
  height := frame.height
  confidence := confidenceOf difference
  properties := OrderedMap.empty.insert differenceProperty (difference.fixedText 2)

/-- The track of one changed frame. -/
def singleTrack (index : Int32) (location : ImageLocation) : Track where
  startFrame := index
  stopFrame := index
  confidence := Single.zero.max location.confidence
  locations := OrderedMap.empty.insert index location

/-- The track that goes on with one more changed frame. -/
def extendTrack (t : Track) (index : Int32) (location : ImageLocation) : Track :=
  { t with
    stopFrame := index
    confidence := t.confidence.max location.confidence
    locations := t.locations.insert index location }

/-- The tracks of the frames from an index on, after a frame and with a track under way. -/
def tracksFrom (limit : Single) (index : Int32) (previous : Option Frame) (current : Option Track) :
    List Frame → List Track
  | [] => current.toList
  | frame :: rest =>
    match change? limit previous frame with
    | none => current.toList ++ tracksFrom limit (index + 1) (some frame) none rest
    | some difference =>
      let location := locationOf frame difference
      let track := match current with
        | none => singleTrack index location
        | some t => extendTrack t index location
      tracksFrom limit (index + 1) (some frame) (some track) rest

/-- The tracks of a job, and the last of its frames remembered. A job with an invalid threshold
or without frames leaves no trace. -/
def detect (job : VideoJob) (d : MotionDetector) :
    Except DetectionError (List Track) × MotionDetector :=
  match threshold job with
  | .error e => (.error e, d)
  | .ok limit =>
    (.ok (tracksFrom limit job.startFrame d.previous none job.frames),
      { d with previous := job.frames.getLast?.or d.previous })

instance : Detector MotionDetector where
  setRunDirectory dir d := { d with runDirectory := some dir }
  init d := (true, d)
  close d := (true, { d with previous := none })
  detectionType _ := "MOTION"
  supports _ kind := kind = .video
  detectVideo := detect

end MotionDetector

end LiveDetection
