import LiveDetection.Failure
import LiveDetection.Frame
import LiveDetection.Number.Fit
import LiveDetection.Track.Basic

/-!
# Detection components

A component is asked for detections in jobs of four media kinds. A request that it does
not implement is refused as unsupported. A job about video carries the frames of one
segment of the stream.
-/

namespace LiveDetection

/-- The kinds of media that a component may understand. -/
inductive MediaKind where
  | video
  | image
  | audio
  | generic
deriving DecidableEq, Repr

/-- The name of a media kind. -/
def MediaKind.name : MediaKind → String
  | video => "VIDEO"
  | image => "IMAGE"
  | audio => "AUDIO"
  | generic => "GENERIC"

/-- The media kind of a name. -/
def MediaKind.ofName? (name : String) : Option MediaKind :=
  [MediaKind.video, .image, .audio, .generic].find? fun kind => kind.name = name

/-- One segment of a live stream, frames included. -/
structure VideoJob where
  jobName : String
  startFrame : Int32
  stopFrame : Int32
  jobProperties : Properties := .empty
  mediaProperties : Properties := .empty
  frames : List Frame
deriving DecidableEq

namespace VideoJob

/-- The frame at an index of the whole stream, if the job holds it. -/
def frame? (job : VideoJob) (index : Int32) : Option Frame :=
  match subInt32? index job.startFrame with
  | some offset => if 0 ≤ offset then job.frames[offset.toNatClampNeg]? else none
  | none => none

/-- A job property. -/
def property? (job : VideoJob) (name : String) : Option String := job.jobProperties.get? name

end VideoJob

/-- A request about data behind an address. -/
structure DataJob where
  jobName : String
  dataUri : String
  jobProperties : Properties := .empty
  mediaProperties : Properties := .empty

/-- A request about a stretch of sound, in milliseconds. -/
structure AudioJob extends DataJob where
  startTime : Int32
  stopTime : Int32

/-- A detection component with state `δ`. -/
class Detector (δ : Type) where
  /-- Say where the component may keep its files. -/
  setRunDirectory : String → δ → δ
  /-- Get ready; `false` on failure. -/
  init : δ → Bool × δ
  /-- Finish; `false` on failure. -/
  close : δ → Bool × δ
  /-- What the component looks for. -/
  detectionType : δ → String
  /-- Whether the component understands a media kind. -/
  supports : δ → MediaKind → Bool
  /-- The tracks in a segment of video. -/
  detectVideo : VideoJob → δ → Except DetectionError (List Track) × δ :=
    fun _ d => (.error .unsupportedDataType, d)
  /-- The locations in an image. -/
  detectImage : DataJob → δ → Except DetectionError (List ImageLocation) × δ :=
    fun _ d => (.error .unsupportedDataType, d)
  /-- The tracks in a stretch of sound. -/
  detectAudio : AudioJob → δ → Except DetectionError (List AudioTrack) × δ :=
    fun _ d => (.error .unsupportedDataType, d)
  /-- The tracks in other data. -/
  detectGeneric : DataJob → δ → Except DetectionError (List GenericTrack) × δ :=
    fun _ d => (.error .unsupportedDataType, d)

end LiveDetection
