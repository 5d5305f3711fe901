import LiveDetection.Capture.Stream
import LiveDetection.Job.Config
import LiveDetection.Message.Report
import LiveDetection.Publish.Basic
import LiveDetection.Track.Repair

/-!
# Running a job

A run reads the stream segment by segment. The frames of a segment go to the detection
component, the tracks that come back are repaired, and the run publishes an alert when
there are any, and a summary in any case. The control channel is polled after every
summary and nowhere else. A stream that cannot be read is reconnected; if that takes too
long, the stall is reported, and with a stall timeout the run gives up.

Every call that a run makes is an event, so what a run may do is a statement about lists
of events.
-/

namespace LiveDetection

/-- The states of a job that a run reports. -/
inductive RunPhase where
  | inProgress
  | stalled
  | stopped
deriving DecidableEq, Repr

/-- The state as it stands in a status report. -/
def RunPhase.label : RunPhase → String
  | inProgress => "IN_PROGRESS"
  | stalled => "STALLED"
  | stopped => "STOPPED"

/-- An occasion on which a run asks for the time of day: in which segment, and when by the time of
the run. -/
structure Occasion where
  segmentNumber : Int32
  now : Nat

/-- A job, everything that it uses, and how far it has come. -/
structure JobRun (σ δ π : Type) where
  config : JobConfig
  stream : LiveStream σ
  detector : δ
  publisher : π
  /-- The milliseconds since the epoch that a run is told. It asks at most once in a segment, so
  whatever it is told each time it asks, this is one answer for each occasion. -/
  epochMillis : Occasion → Int64
  /-- The number of the segment to come. -/
  segmentNumber : Int32 := 0
  /-- The index of the first frame to come. -/
  nextFrame : Int32 := 0

namespace JobRun

variable [Resolution] {σ δ π : Type} [VideoSource σ] [Detector δ] [Publisher π]

/-- A session on the stream of a job. -/
def onStream {α : Type} (p : Session Event (LiveStream σ) α) : Session Event (JobRun σ δ π) α :=
  p.onPart (·.stream) fun stream e => { e with stream := stream }

/-- The failure to publish to a queue. -/
def publishError (queue reason : String) : RunError :=
  .fatal .messageTransportError ("Failed to publish to " ++ queue ++ ": " ++ reason)

/-- Publish a report to a queue. Failing to is final. -/
def send {ρ : Type} [Wire ρ] (queue : String) (report : ρ) : Session Event (JobRun σ δ π) Unit :=
  match Wire.toMessage report with
  | .error e => .fail (publishError queue e.message)
  | .ok message => do
    let answer ← .act fun (e : JobRun σ δ π) =>
      let answer := Publisher.publish queue message e.publisher
      (answer.1, [.published queue message answer.1.isOk], { e with publisher := answer.2 })
    match answer with
    | .ok () => pure ()
    | .error e => .fail (publishError queue e.message)

/-- Report the state of the job. -/
def reportPhase (phase : RunPhase) : Session Event (JobRun σ δ π) Unit := do
  let e ← Session.world
  send e.config.transport.jobStatusQueue (⟨e.config.job, phase.label⟩ : JobStatus)

/-- The failure of a stream that stalled for too long. -/
def stallError (uri : String) (timeout : UInt64) : RunError :=
  .fatal .streamStalled ("Stream " ++ uri ++ " stalled for longer than the stall timeout of " ++
    toString timeout.toNat ++ " ms")

/-- Reconnect a stream whose stall was reported: for what is left of the stall timeout, or
without one for as long as it takes. -/
def recover : Session Event (JobRun σ δ π) Frame := do
  let e ← Session.world
  match e.config.stallTimeout with
  | none => onStream LiveStream.reconnect
  | some timeout =>
    let left := millis timeout.toNat - e.config.stallAlertTicks
    match ← onStream (LiveStream.reconnectFor left) with
    | some frame => pure frame
    | none => .fail (stallError e.stream.uri timeout)

/-- Read one frame. A failed read leads to reconnection, then to a report of the stall, then
to the end of patience; a stream that recovers is reported as well. -/
def awaitFrame : Session Event (JobRun σ δ π) Frame := do
  match ← onStream LiveStream.read with
  | some frame => pure frame
  | none =>
    let e ← Session.world
    match ← onStream (LiveStream.reconnectFor e.config.stallAlertTicks) with
    | some frame => pure frame
    | none =>
      reportPhase .stalled
      let frame ← recover
      reportPhase .inProgress
      pure frame

/-- Read a number of frames. -/
def awaitFrames : Nat → Session Event (JobRun σ δ π) (List Frame)
  | 0 => pure []
  | n + 1 => do
    let frame ← awaitFrame
    let frames ← awaitFrames n
    pure (frame :: frames)

/-- The last frame of a segment, if the frame after it has an index too. -/
def stopFrame? (startFrame size : Int32) : Option Int32 :=
  (addInt32? startFrame (size - 1)).filter fun stop => stop < Int32.maxValue

/-- The failure of a job that has used up all frame indices. -/
def overflowError (segment : Int32) : RunError :=
  .fatal .unexpectedError ("Frame index overflow after segment " ++ toString segment.toInt)

/-- The tracks of the component for a segment. A component that fails has found nothing. -/
def detect (job : VideoJob) : Session Event (JobRun σ δ π) (List Track) := do
  let answer ← .act fun (e : JobRun σ δ π) =>
    let answer := Detector.detectVideo job e.detector
    (answer.1, [.detected job answer.1], { e with detector := answer.2 })
  match answer with
  | .ok tracks => pure tracks
  | .error _ => pure []

/-- The least first frame of some tracks. -/
def firstActivity? (tracks : List Track) : Option Int32 :=
  (tracks.map (·.startFrame)).min?

/-- Read a segment and report what is found in it. -/
def runSegment : Session Event (JobRun σ δ π) Unit := do
  let e ← Session.world
  let start := e.nextFrame
  match stopFrame? start e.config.segmentSize with
  | none => .fail (overflowError e.segmentNumber)
  | some stop =>
    let frames ← awaitFrames e.config.segmentSize.toNatClampNeg
    .update fun e => { e with nextFrame := stop + 1 }
    let found ← detect
      { jobName := e.config.jobName, startFrame := start, stopFrame := stop
        jobProperties := e.config.jobProperties, mediaProperties := e.config.mediaProperties
        frames := frames }
    let tracks := repairTracks found start stop
    match firstActivity? tracks with
    | none => pure ()
    | some frameIndex =>
      let now ← Session.world
      send e.config.transport.activityAlertQueue
        (⟨e.config.job, e.segmentNumber, frameIndex,
          e.epochMillis ⟨e.segmentNumber, now.stream.now⟩⟩ : ActivityAlert)
    send e.config.transport.summaryReportQueue
      (⟨e.config.job, e.segmentNumber, tracks⟩ : SegmentSummary)
    .update fun e => { e with segmentNumber := e.segmentNumber + 1 }

/-- Note the answer to a poll. -/
def notePoll (status : ControlStatus) : Session Event (JobRun σ δ π) Unit :=
  .act fun e => ((), [.polled status], e)

/-- Process segments until a poll ends the run. The polls are answered from a list; after its
end the answer is to quit. -/
def runSegments : List ControlStatus → Session Event (JobRun σ δ π) Unit
  | [] => do
    runSegment
    notePoll .quit
  | status :: polls => do
    runSegment
    notePoll status
    match status with
    | .proceed => runSegments polls
    | .quit => pure ()
    | .fatal reason => .fail (.fatal .unableToReadFromStandardIn reason)

/-- Tell the component to finish. Its answer changes nothing. -/
def finish : Session Event (JobRun σ δ π) Unit :=
  .act fun e =>
    let answer := Detector.close e.detector
    ((), [.finished answer.1], { e with detector := answer.2 })

/-- Run the job until a poll asks to stop. -/
def run (polls : List ControlStatus) : Session Event (JobRun σ δ π) Unit := do
  reportPhase .inProgress
  runSegments polls
  reportPhase .stopped
  finish

end JobRun

end LiveDetection
