import LiveDetection.Proofs.Message.RoundTrip
import LiveDetection.Run.JobRun

/-!
# How far a run has come

From outside, a run shows its events only. `Standing` is what can be known of a run from
them and its settings: where it stands between two events, which segment and which frame
come next, and the time. `Step` says which event may happen in which standing and where it
leads; the answers of the source, the component, the publisher and the control channel are
in the events, so nothing else decides. `MayFail` and `MayWait` say where a run may end
early without a further event.
-/

namespace LiveDetection

/-- The message with which a job reports a phase. -/
def JobConfig.phaseMessage (c : JobConfig) (phase : RunPhase) : Message :=
  ⟨(⟨c.job, phase.label⟩ : JobStatus).headerProperties, none⟩

/-- A phase is reported to the queue for job states. -/
def Event.phaseReport (c : JobConfig) (phase : RunPhase) (accepted : Bool) : Event :=
  .published c.transport.jobStatusQueue (c.phaseMessage phase) accepted

/-- The tracks in the answer of a component; a failed detection has found nothing. -/
def tracksOf : Except DetectionError (List Track) → List Track
  | .ok tracks => tracks
  | .error _ => []

/-- The frames of a segment. -/
def JobConfig.segmentLength (c : JobConfig) : Nat := c.segmentSize.toNatClampNeg

/-- What a run does next. -/
inductive Stage where
  /-- It reports that the job is in progress. -/
  | starting
  /-- It reads a segment of which it has some frames, or hands the full segment over. -/
  | reading (frames : List Frame)
  /-- It reconnects, or reports a stall. -/
  | reconnecting (frames : List Frame)
  /-- It reconnects after the stall was reported. -/
  | stalled (frames : List Frame)
  /-- It reports that the stream is back. -/
  | recovered (frames : List Frame)
  /-- It reports the repaired tracks of a segment. -/
  | found (tracks : List Track)
  /-- It reports the summary after the alert. -/
  | alerted (tracks : List Track)
  /-- It polls the control channel. -/
  | summarised
  /-- It reports that the job has stopped. -/
  | quitting
  /-- It tells the component to finish. -/
  | closing
  /-- It has ended well. -/
  | finished
  /-- It fails, because a queue did not take a message. -/
  | refused (queue : String)
  /-- It fails, because the control channel did. -/
  | broken (reason : String)

namespace Stage

/-- The stream is being reconnected, and a frame would lead on: before the stall is reported
straight back to reading, afterwards to the report of the recovery. -/
inductive Retries : Stage → (Frame → Stage) → Prop
  | early (frames : List Frame) :
    Retries (.reconnecting frames) fun frame => .reading (frames ++ [frame])
  | late (frames : List Frame) :
    Retries (.stalled frames) fun frame => .recovered (frames ++ [frame])

/-- Nothing but the summary of the segment is left to report. -/
inductive Summarises : Stage → List Track → Prop
  | quiet : Summarises (.found []) []
  | active (tracks : List Track) : Summarises (.alerted tracks) tracks

theorem Retries.cases {stage : Stage} {next : Frame → Stage} (h : stage.Retries next) :
    ∃ frames, (stage = .reconnecting frames ∧ ∀ frame, next frame = .reading (frames ++ [frame])) ∨
      (stage = .stalled frames ∧ ∀ frame, next frame = .recovered (frames ++ [frame])) := by
  cases h with
  | early frames => exact ⟨frames, .inl ⟨rfl, fun _ => rfl⟩⟩
  | late frames => exact ⟨frames, .inr ⟨rfl, fun _ => rfl⟩⟩

theorem Summarises.cases {stage : Stage} {tracks : List Track} (h : stage.Summarises tracks) :
    (stage = .found [] ∧ tracks = []) ∨ stage = .alerted tracks := by
  cases h with
  | quiet => exact .inl ⟨rfl, rfl⟩
  | active => exact .inr rfl

theorem Summarises.unique {stage : Stage} {tracks tracks' : List Track}
    (h : stage.Summarises tracks) (h' : stage.Summarises tracks') : tracks = tracks' := by
  cases h <;> cases h' <;> rfl

/-- Where a poll leads. -/
def afterPoll : ControlStatus → Stage
  | .proceed => .reading []
  | .quit => .quitting
  | .fatal reason => .broken reason

end Stage

/-- What is known of a run between two events. -/
structure Standing where
  config : JobConfig
  uri : String
  /-- The milliseconds since the epoch that the run is told. -/
  epochMillis : Occasion → Int64
  segmentNumber : Int32
  nextFrame : Int32
  now : Nat
  stage : Stage

namespace Standing

/-- The standing in another stage. -/
def goTo (s : Standing) (stage : Stage) : Standing := { s with stage := stage }

/-- The standing at another time, in another stage. -/
def later (s : Standing) (now : Nat) (stage : Stage) : Standing :=
  { s with now := now, stage := stage }

@[simp] theorem stage_goTo (s : Standing) (stage : Stage) : (s.goTo stage).stage = stage := rfl

@[simp] theorem stage_later (s : Standing) (now : Nat) (stage : Stage) :
    (s.later now stage).stage = stage := rfl

/-- The standing after a report: a queue that does not take it ends the run. -/
def afterReport (s : Standing) (queue : String) (accepted : Bool) (next : Stage) : Standing :=
  s.goTo (if accepted then next else .refused queue)

@[simp] theorem stage_afterReport (s : Standing) (queue : String) (accepted : Bool)
    (next : Stage) :
    (s.afterReport queue accepted next).stage = if accepted then next else .refused queue := rfl

/-- The last frame of the segment, if its index and the next one are words. -/
def stopFrame? (s : Standing) : Option Int32 := JobRun.stopFrame? s.nextFrame s.config.segmentSize

/-- The segment that some frames make up. -/
def videoJob (s : Standing) (stop : Int32) (frames : List Frame) : VideoJob where
  jobName := s.config.jobName
  startFrame := s.nextFrame
  stopFrame := stop
  jobProperties := s.config.jobProperties
  mediaProperties := s.config.mediaProperties
  frames := frames

/-- What the run would be told now. -/
def timeOfDay (s : Standing) : Int64 := s.epochMillis ⟨s.segmentNumber, s.now⟩

/-- The alert about the current segment. -/
def alert (s : Standing) (frameIndex : Int32) : ActivityAlert :=
  ⟨s.config.job, s.segmentNumber, frameIndex, s.timeOfDay⟩

/-- The summary of the current segment. -/
def summary (s : Standing) (tracks : List Track) : SegmentSummary :=
  ⟨s.config.job, s.segmentNumber, tracks⟩

end Standing

/-- A call of a reconnection that brings no frame, from one point in time to another. -/
inductive Event.Elapses : Event → Nat → Nat → Prop
  | slept (duration now : Nat) : Elapses (.slept duration) now (now + duration)
  | closed {now later : Nat} (h : now ≤ later) : Elapses .closed now later
  | opened (uri : String) (ok : Bool) {now later : Nat} (h : now ≤ later) :
    Elapses (.opened uri ok) now later
  | unread {now later : Nat} (h : now ≤ later) : Elapses (.read none) now later

/-- What may happen next, and where it leads. -/
inductive Step : Standing → Event → Standing → Prop
  | begun {s : Standing} (h : s.stage = .starting) (accepted : Bool) :
    Step s (.phaseReport s.config .inProgress accepted)
      (s.afterReport s.config.transport.jobStatusQueue accepted (.reading []))
  | read {s : Standing} {frames : List Frame} (h : s.stage = .reading frames)
      (hroom : frames.length < s.config.segmentLength) (hfits : s.stopFrame?.isSome)
      (frame : Frame) {now : Nat} (hnow : s.now ≤ now) :
    Step s (.read (some frame)) (s.later now (.reading (frames ++ [frame])))
  | lost {s : Standing} {frames : List Frame} (h : s.stage = .reading frames)
      (hroom : frames.length < s.config.segmentLength) (hfits : s.stopFrame?.isSome)
      {now : Nat} (hnow : s.now ≤ now) :
    Step s (.read none) (s.later now (.reconnecting frames))
  | retried {s : Standing} {next : Frame → Stage} (h : s.stage.Retries next) {e : Event}
      {now : Nat} (he : e.Elapses s.now now) :
    Step s e (s.later now s.stage)
  | reconnected {s : Standing} {next : Frame → Stage} (h : s.stage.Retries next) (frame : Frame)
      {now : Nat} (hnow : s.now ≤ now) :
    Step s (.read (some frame)) (s.later now (next frame))
  | stallReported {s : Standing} {frames : List Frame} (h : s.stage = .reconnecting frames)
      (accepted : Bool) :
    Step s (.phaseReport s.config .stalled accepted)
      (s.afterReport s.config.transport.jobStatusQueue accepted (.stalled frames))
  | recoveryReported {s : Standing} {frames : List Frame} (h : s.stage = .recovered frames)
      (accepted : Bool) :
    Step s (.phaseReport s.config .inProgress accepted)
      (s.afterReport s.config.transport.jobStatusQueue accepted (.reading frames))
  | detected {s : Standing} {frames : List Frame} (h : s.stage = .reading frames)
      (hfull : frames.length = s.config.segmentLength) {stop : Int32}
      (hstop : s.stopFrame? = some stop) (result : Except DetectionError (List Track)) :
    Step s (.detected (s.videoJob stop frames) result)
      { s with
        nextFrame := stop + 1
        stage := .found (repairTracks (tracksOf result) s.nextFrame stop) }
  | alerted {s : Standing} {tracks : List Track} (h : s.stage = .found tracks)
      {frameIndex : Int32} (hfirst : JobRun.firstActivity? tracks = some frameIndex)
      (accepted : Bool) :
    Step s
      (.published s.config.transport.activityAlertQueue
        ⟨(s.alert frameIndex).headerProperties, none⟩ accepted)
      (s.afterReport s.config.transport.activityAlertQueue accepted (.alerted tracks))
  | summarised {s : Standing} {tracks : List Track} (h : s.stage.Summarises tracks) {m : Message}
      (hm : Wire.toMessage (s.summary tracks) = .ok m) :
    Step s (.published s.config.transport.summaryReportQueue m true)
      { s with segmentNumber := s.segmentNumber + 1, stage := .summarised }
  | unsummarised {s : Standing} {tracks : List Track} (h : s.stage.Summarises tracks)
      {m : Message} (hm : Wire.toMessage (s.summary tracks) = .ok m) :
    Step s (.published s.config.transport.summaryReportQueue m false)
      (s.goTo (.refused s.config.transport.summaryReportQueue))
  | polled {s : Standing} (h : s.stage = .summarised) (status : ControlStatus) :
    Step s (.polled status) (s.goTo (.afterPoll status))
  | stopReported {s : Standing} (h : s.stage = .quitting) (accepted : Bool) :
    Step s (.phaseReport s.config .stopped accepted)
      (s.afterReport s.config.transport.jobStatusQueue accepted .closing)
  | finished {s : Standing} (h : s.stage = .closing) (ok : Bool) :
    Step s (.finished ok) (s.goTo .finished)

/-- The events that lead from one standing to another. -/
inductive Steps (s : Standing) : List Event → Standing → Prop
  | refl : Steps s [] s
  | step {events : List Event} {t u : Standing} {e : Event} (h : Steps s events t)
      (he : Step t e u) : Steps s (events ++ [e]) u

/-- A run of which a report was refused takes no further step. -/
theorem Step.stage_ne_refused {s t : Standing} {e : Event} (h : Step s e t) (queue : String) :
    s.stage ≠ .refused queue := by
  cases h with
  | retried h | reconnected h => obtain ⟨frames, ⟨h, -⟩ | ⟨h, -⟩⟩ := h.cases <;> simp [h]
  | summarised h | unsummarised h => obtain ⟨h, -⟩ | h := h.cases <;> simp [h]
  | begun h | read h | lost h | stallReported h | recoveryReported h | detected h | alerted h
  | polled h | stopReported h | finished h => simp [h]

theorem Step.config_eq {s t : Standing} {e : Event} (h : Step s e t) : t.config = s.config := by
  cases h <;> rfl

theorem Step.epochMillis_eq {s t : Standing} {e : Event} (h : Step s e t) :
    t.epochMillis = s.epochMillis := by
  cases h <;> rfl

namespace Steps

theorem single {s t : Standing} {e : Event} (h : Step s e t) : Steps s [e] t := .step .refl h

theorem trans {s t u : Standing} {front back : List Event} (h : Steps s front t)
    (h' : Steps t back u) : Steps s (front ++ back) u := by
  induction h' with
  | refl => simpa using h
  | step _ he ih =>
    rw [← List.append_assoc]
    exact ih.step he

/-- What holds at the start and is kept by every step holds at the end. -/
theorem invariant {s t : Standing} {events : List Event} {P : List Event → Standing → Prop}
    (h : Steps s events t) (start : P [] s)
    (keep : ∀ {past now e next}, Steps s past now → P past now → Step now e next →
      P (past ++ [e]) next) : P events t := by
  induction h with
  | refl => exact start
  | step h he ih => exact keep h ih he

theorem eq_of_nil {s t : Standing} (h : Steps s [] t) : t = s := by
  generalize hevents : ([] : List Event) = events at h
  cases h with
  | refl => rfl
  | step => simp at hevents

/-- The standings before and behind an event on the way. -/
theorem split {s t : Standing} {before after : List Event} {e : Event}
    (h : Steps s (before ++ e :: after) t) :
    ∃ u v, Steps s before u ∧ Step u e v ∧ Steps v after t := by
  generalize hevents : before ++ e :: after = events at h
  induction h generalizing after with
  | refl => simp at hevents
  | @step past now next last h hstep ih =>
    rcases concat_eq_append_cons hevents.symm with ⟨rest, hpast, rfl⟩ | ⟨rfl, rfl, rfl⟩
    · obtain ⟨u, v, hbefore, hfirst, hrest⟩ := ih hpast.symm
      exact ⟨u, v, hbefore, hfirst, .step hrest hstep⟩
    · exact ⟨now, next, h, hstep, .refl⟩

theorem split_cons {s t : Standing} {after : List Event} {e : Event} (h : Steps s (e :: after) t) :
    ∃ u, Step s e u ∧ Steps u after t := by
  rw [← List.nil_append (e :: after)] at h
  obtain ⟨first, u, hnone, hstep, hafter⟩ := h.split
  obtain rfl := hnone.eq_of_nil
  exact ⟨u, hstep, hafter⟩

theorem config_eq {s t : Standing} {events : List Event} (h : Steps s events t) :
    t.config = s.config :=
  h.invariant (P := fun _ u => u.config = s.config) rfl fun _ hpast hstep =>
    hstep.config_eq.trans hpast

theorem epochMillis_eq {s t : Standing} {events : List Event} (h : Steps s events t) :
    t.epochMillis = s.epochMillis :=
  h.invariant (P := fun _ u => u.epochMillis = s.epochMillis) rfl fun _ hpast hstep =>
    hstep.epochMillis_eq.trans hpast

end Steps

/-- The errors with which a run may end in a standing, without a further event. -/
inductive MayFail (s : Standing) : RunError → Prop
  | refused {queue : String} (h : s.stage = .refused queue) (reason : String) :
    MayFail s (JobRun.publishError queue reason)
  | broken {reason : String} (h : s.stage = .broken reason) :
    MayFail s (.fatal .unableToReadFromStandardIn reason)
  | overflowed (h : s.stage = .reading []) (hstop : s.stopFrame? = none) :
    MayFail s (JobRun.overflowError s.segmentNumber)
  | gaveUp {frames : List Frame} (h : s.stage = .stalled frames) {timeout : UInt64}
      (htimeout : s.config.stallTimeout = some timeout) :
    MayFail s (JobRun.stallError s.uri timeout)
  | tooLarge {tracks : List Track} (h : s.stage.Summarises tracks) {e : CodecError}
      (he : Wire.toMessage (s.summary tracks) = .error e) :
    MayFail s (JobRun.publishError s.config.transport.summaryReportQueue e.message)

/-- The run may wait for the stream without an end. -/
def MayWait (s : Standing) : Prop :=
  s.config.stallTimeout = none ∧ ∃ frames, s.stage = .stalled frames

end LiveDetection
