import LiveDetection.Message.Basic
import LiveDetection.Message.Payload
import LiveDetection.Report.Basic

/-!
# Reports as messages

Every report names its job in two header properties. A status and an alert put the rest
into further properties and have no body. A summary puts its segment and its tracks into
an archived body; a summary whose body cannot be read still names its job, has the segment
number of a missing segment and no tracks.
-/

namespace LiveDetection

namespace Header

/-- The name of the job, a text. -/
def jobName : String := "JOB_NAME"

/-- The number of the job, a 32-bit number. -/
def jobNumber : String := "JOB_NUMBER"

/-- The state of the job, a text. -/
def jobStatus : String := "JOB_STATUS"

/-- The number of a segment, a 32-bit number. -/
def segmentNumber : String := "SEGMENT_NUMBER"

/-- The index of a frame, a 32-bit number. -/
def frameIndex : String := "FRAME_INDEX"

/-- When activity was detected, a 64-bit number of milliseconds since the epoch. -/
def activityDetectTime : String := "ACTIVITY_DETECT_TIME"

end Header

/-- A kind of report with its form as a message. -/
class Wire (ρ : Type) where
  /-- The message of a report. -/
  toMessage : ρ → Except CodecError Message
  /-- The report of a message. -/
  ofMessage : Message → Except CodecError ρ

/-- The message that names a job and says nothing else. -/
def JobIdentity.header (job : JobIdentity) : Message :=
  (Message.empty.setString Header.jobName job.name).setInt Header.jobNumber job.number

/-- The job that a message names. -/
def Message.job (m : Message) : Except CodecError JobIdentity := do
  let name ← m.string Header.jobName
  let number ← m.int Header.jobNumber
  return ⟨name, number⟩

instance : Wire JobStatus where
  toMessage s := .ok (s.job.header.setString Header.jobStatus s.status)
  ofMessage m := do
    let job ← m.job
    let status ← m.string Header.jobStatus
    return ⟨job, status⟩

instance : Wire ActivityAlert where
  toMessage a :=
    .ok (((a.job.header.setInt Header.segmentNumber a.segmentNumber).setInt Header.frameIndex
      a.frameIndex).setLong Header.activityDetectTime a.detectTime)
  ofMessage m := do
    let job ← m.job
    let segmentNumber ← m.int Header.segmentNumber
    let frameIndex ← m.int Header.frameIndex
    let detectTime ← m.long Header.activityDetectTime
    return ⟨job, segmentNumber, frameIndex, detectTime⟩

/-- The payload in a message body. A missing, empty or invalid body holds none. -/
def Message.payload? (m : Message) : Option SegmentPayload :=
  match m.body with
  | some (b :: bytes) => Archive.decode? (b :: bytes)
  | _ => none

instance : Wire SegmentSummary where
  toMessage s :=
    match Archive.encode? (SegmentPayload.ofTracks s.segmentNumber s.tracks) with
    | some body => .ok (s.job.header.setBody body)
    | none => .error .bodyTooLarge
  ofMessage m := do
    let job ← m.job
    match m.payload? with
    | some payload => return ⟨job, payload.segmentNumber, payload.tracks⟩
    | none => return ⟨job, SegmentSummary.unknownSegment, []⟩

end LiveDetection
