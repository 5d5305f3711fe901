import LiveDetection.Proofs.Run.Stalls
import LiveDetection.Proofs.Run.Summaries

/-!
# Failures end a run at once

A message that its queue does not take and a control channel that fails are the last events of a
run. A stall timeout that is over and tracks that do not fit into a summary end it likewise, without
an event of their own; the error tells which of them it was.
However a run ends, the number of the segment to come is the number of summaries that went out,
and the component was asked that often or once more.
-/

namespace LiveDetection

/-! ## Dead ends -/

/-- An event that leads to a stage out of which no step leads is the last one. -/
theorem Steps.last_of_dead {s t : Standing} {events : List Event} (h : Steps s events t)
    {e : Event} {stage : Stage} (enter : ∀ {u v}, Step u e v → v.stage = stage)
    (stuck : ∀ {u e v}, Step u e v → u.stage ≠ stage) {before after : List Event}
    (hevents : events = before ++ e :: after) : after = [] ∧ t.stage = stage := by
  subst hevents
  obtain ⟨u, v, -, hstep, hafter⟩ := h.split
  cases after with
  | nil =>
    obtain rfl := hafter.eq_of_nil
    exact ⟨rfl, enter hstep⟩
  | cons next rest =>
    obtain ⟨w, hnext, -⟩ := hafter.split_cons
    exact absurd (enter hstep) (stuck hnext)

namespace Step

variable {s t : Standing} {e : Event}

/-- A message that its queue does not take leads to a failure. -/
theorem stage_eq_refused {queue : String} {m : Message}
    (h : Step s (.published queue m false) t) : t.stage = .refused queue := by
  generalize he : Event.published queue m false = e at h
  cases h with
  | begun h accepted | stallReported h accepted | recoveryReported h accepted
  | stopReported h accepted | alerted h hfirst accepted =>
    injection he with hqueue hm haccepted
    subst haccepted
    exact congrArg Stage.refused hqueue.symm
  | unsummarised =>
    injection he with hqueue
    exact congrArg Stage.refused hqueue.symm
  | summarised => injection he with hqueue hm haccepted; cases haccepted
  | retried h hstep => cases he; cases hstep
  | read | lost | reconnected | detected | polled | finished => cases he

/-- A control channel that fails leads to a failure. -/
theorem stage_eq_broken {reason : String} (h : Step s (.polled (.fatal reason)) t) :
    t.stage = .broken reason := by
  generalize he : Event.polled (.fatal reason) = e at h
  cases h with
  | polled h status =>
    cases he
    rfl
  | retried h hstep => cases he; cases hstep
  | _ => cases he

/-- A run whose control channel failed takes no further step. -/
theorem stage_ne_broken (h : Step s e t) (reason : String) : s.stage ≠ .broken reason := by
  cases h with
  | retried h | reconnected h => obtain ⟨frames, ⟨h, -⟩ | ⟨h, -⟩⟩ := h.cases <;> simp [h]
  | summarised h | unsummarised h => obtain ⟨h, -⟩ | h := h.cases <;> simp [h]
  | begun h | read h | lost h | stallReported h | recoveryReported h | detected h | alerted h
  | polled h | stopReported h | finished h => simp [h]

end Step

namespace MayFail

variable {s : Standing} {error : RunError}

theorem of_refused (h : MayFail s error) {queue : String} (hs : s.stage = .refused queue) :
    ∃ reason, error = JobRun.publishError queue reason := by
  cases h with
  | refused h reason =>
    rw [hs] at h
    cases h
    exact ⟨reason, rfl⟩
  | tooLarge h => obtain ⟨h, -⟩ | h := h.cases <;> simp [hs] at h
  | broken h | overflowed h | gaveUp h => simp [hs] at h

theorem of_broken (h : MayFail s error) {reason : String} (hs : s.stage = .broken reason) :
    error = .fatal .unableToReadFromStandardIn reason := by
  cases h with
  | broken h =>
    rw [hs] at h
    cases h
    rfl
  | tooLarge h => obtain ⟨h, -⟩ | h := h.cases <;> simp [hs] at h
  | refused h | overflowed h | gaveUp h => simp [hs] at h

end MayFail

/-! ## Summaries that cannot be written -/

/-- What follows the answer of the component, and how the run ends, if its tracks do not fit into a
summary: there is an alert if there are tracks, and nothing else happens. -/
inductive Unwritten (c : JobConfig) (tracks : List Track) (e : CodecError) :
    List Event → Ending Unit → Prop
  | quiet (h : tracks = []) :
    Unwritten c tracks e []
      (.failed (JobRun.publishError c.transport.summaryReportQueue e.message))
  | alerted (h : tracks ≠ []) (m : Message) :
    Unwritten c tracks e [.published c.transport.activityAlertQueue m true]
      (.failed (JobRun.publishError c.transport.summaryReportQueue e.message))
  | refused (h : tracks ≠ []) (m : Message) (reason : String) :
    Unwritten c tracks e [.published c.transport.activityAlertQueue m false]
      (.failed (JobRun.publishError c.transport.activityAlertQueue reason))

section

variable {s t : Standing} {e : Event} {events : List Event} {tracks : List Track}
  {codecError : CodecError} {ending : Ending Unit}

theorem Step.stage_eq_found {job : VideoJob} {result : Except DetectionError (List Track)}
    (h : Step s (.detected job result) t) :
    t.stage = .found (repairTracks (tracksOf result) job.startFrame job.stopFrame) ∧
      t.segmentNumber = s.segmentNumber := by
  generalize he : Event.detected job result = e at h
  cases h with
  | detected =>
    cases he
    exact ⟨rfl, rfl⟩
  | retried h hstep => cases he; cases hstep
  | _ => cases he

/-- Where nothing but the summary is due, a step is made with a summary that was written. -/
theorem Step.exists_toMessage (h : Step s e t) (hs : s.stage.Summarises tracks) :
    ∃ m, Wire.toMessage (s.summary tracks) = .ok m := by
  cases h with
  | summarised h hm | unsummarised h hm =>
    obtain rfl := h.unique hs
    exact ⟨_, hm⟩
  | alerted h hfirst =>
    -- without tracks there is no alert
    rw [h] at hs
    cases hs
    cases hfirst
  | retried h | reconnected h =>
    obtain ⟨frames, ⟨h, -⟩ | ⟨h, -⟩⟩ := h.cases <;> rw [h] at hs <;> cases hs
  | begun h | read h | lost h | stallReported h | recoveryReported h | detected h | polled h
  | stopReported h | finished h =>
    rw [h] at hs
    cases hs

theorem MayFail.of_summarises {error : RunError} (h : MayFail s error)
    (hs : s.stage.Summarises tracks) :
    ∃ codecError, Wire.toMessage (s.summary tracks) = .error codecError ∧
      error = JobRun.publishError s.config.transport.summaryReportQueue codecError.message := by
  cases h with
  | tooLarge h he =>
    obtain rfl := h.unique hs
    exact ⟨_, he, rfl⟩
  | refused h | broken h | overflowed h | gaveUp h =>
    rw [h] at hs
    cases hs

/-- Tracks that were found are announced before anything else. -/
theorem Step.of_found (h : Step s e t) (hs : s.stage = .found tracks) (hne : tracks ≠ []) :
    ∃ m accepted, e = .published s.config.transport.activityAlertQueue m accepted ∧
      t = s.afterReport s.config.transport.activityAlertQueue accepted (.alerted tracks) := by
  cases h with
  | alerted h hfirst accepted =>
    rw [hs] at h
    cases h
    exact ⟨_, accepted, rfl, rfl⟩
  | summarised h | unsummarised h =>
    rw [hs] at h
    cases h
    exact absurd rfl hne
  | retried h | reconnected h => obtain ⟨frames, ⟨h, -⟩ | ⟨h, -⟩⟩ := h.cases <;> simp [hs] at h
  | begun h | read h | lost h | stallReported h | recoveryReported h | detected h | polled h
  | stopReported h | finished h => simp [hs] at h

/-- How a run may end in a standing: it has come to its end, it waits for the stream, or it has
failed. -/
def Standing.MayEnd (s : Standing) (ending : Ending Unit) : Prop :=
  s.stage = .finished ∨ (∃ frames, s.stage = .stalled frames) ∨
    ∃ error, ending = .failed error ∧ MayFail s error

namespace Steps

/-- A summary that cannot be written ends the run where nothing but it is due. -/
theorem ends_of_summarises (h : Steps s events t) (hs : s.stage.Summarises tracks)
    (hm : Wire.toMessage (s.summary tracks) = .error codecError) (hend : t.MayEnd ending) :
    events = [] ∧ ending =
      .failed (JobRun.publishError s.config.transport.summaryReportQueue codecError.message) := by
  cases events with
  | nil =>
    obtain rfl := h.eq_of_nil
    refine ⟨rfl, ?_⟩
    rcases hend with hstage | ⟨frames, hstage⟩ | ⟨error, rfl, hfail⟩
    · rw [hstage] at hs
      cases hs
    · rw [hstage] at hs
      cases hs
    · obtain ⟨codecError', hm', rfl⟩ := hfail.of_summarises hs
      obtain rfl := Except.error.inj (hm.symm.trans hm')
      rfl
  | cons e rest =>
    obtain ⟨u, hstep, -⟩ := h.split_cons
    obtain ⟨m, hwritten⟩ := hstep.exists_toMessage hs
    rw [hm] at hwritten
    cases hwritten

/-- Tracks that do not fit into a summary end the run behind the alert about them. -/
theorem unwritten (h : Steps s events t) (hs : s.stage = .found tracks)
    (hm : Wire.toMessage (s.summary tracks) = .error codecError) (hend : t.MayEnd ending) :
    Unwritten s.config tracks codecError events ending := by
  by_cases htracks : tracks = []
  · subst htracks
    obtain ⟨rfl, rfl⟩ := h.ends_of_summarises (hs ▸ .quiet) hm hend
    exact .quiet rfl
  cases events with
  | nil =>
    obtain rfl := h.eq_of_nil
    simp only [Standing.MayEnd, hs, reduceCtorEq, exists_false, false_or] at hend
    obtain ⟨error, -, hfail⟩ := hend
    cases hfail with
    | tooLarge h =>
      rw [hs] at h
      cases h
      exact absurd rfl htracks
    | refused h | broken h | overflowed h | gaveUp h => simp [hs] at h
  | cons e rest =>
    obtain ⟨u, hstep, hrest⟩ := h.split_cons
    obtain ⟨m, accepted, rfl, rfl⟩ := hstep.of_found hs htracks
    cases accepted with
    | true =>
      obtain ⟨rfl, rfl⟩ := hrest.ends_of_summarises (.active tracks) hm hend
      exact .alerted htracks m
    | false =>
      obtain ⟨hafter, hstage⟩ :=
        h.last_of_dead Step.stage_eq_refused (·.stage_ne_refused _) (List.nil_append _).symm
      subst hafter
      simp only [Standing.MayEnd, hstage, reduceCtorEq, exists_false, false_or] at hend
      obtain ⟨error, rfl, hfail⟩ := hend
      obtain ⟨reason, rfl⟩ := hfail.of_refused hstage
      exact .refused htracks m reason

end Steps

end

/-! ## Counts -/

/-- How many segments were handed to the component whose summary has not gone out. -/
def Stage.InHand : Stage → Nat → Prop
  | .found _, k | .alerted _, k => k = 1
  | .refused _, k => k ≤ 1
  | _, k => k = 0

namespace Stage

variable {stage : Stage} {k : Nat}

theorem InHand.le_one (h : stage.InHand k) : k ≤ 1 := by
  cases stage with
  | found | alerted => exact Nat.le_of_eq h
  | refused => exact h
  | _ => exact Nat.le_trans (Nat.le_of_eq h) (Nat.zero_le 1)

theorem inHand_of_idle (h : stage.Idle) : stage.InHand k ↔ k = 0 := by
  cases stage with
  | found | alerted | refused => cases h
  | _ => rfl

theorem Summarises.inHand_iff {tracks : List Track} (h : stage.Summarises tracks) :
    stage.InHand k ↔ k = 1 := by
  cases h <;> rfl

end Stage

/-- The counts of a run, from what it has done and where it stands. -/
structure Counted (events : List Event) (s : Standing) : Prop where
  segmentNumber_eq : s.segmentNumber = Int32.ofNat (summaryCount (sentOf events))
  detections_eq : ∃ k, (detectionsOf events).length = summaryCount (sentOf events) + k ∧
    s.stage.InHand k

section

variable {s t : Standing} {events : List Event} {e : Event}

theorem summaryCount_published {c : JobConfig} {kind : ReportKind} {queue : String} {m : Message}
    (h : kind.Describes c (queue, m)) (events : List Event) :
    summaryCount (sentOf (events ++ [.published queue m true])) =
      if kind = .summary then summaryCount (sentOf events) + 1
      else summaryCount (sentOf events) := by
  rw [sentOf_append]
  exact summaryCount_concat h _

theorem detectionsOf_published (queue : String) (m : Message) (accepted : Bool)
    (events : List Event) :
    detectionsOf (events ++ [.published queue m accepted]) = detectionsOf events := by
  rw [detectionsOf_append]
  exact List.append_nil _

namespace Counted

/-- A step that counts for nothing. -/
theorem same (h : Counted events s)
    (hsummaries : summaryCount (sentOf (events ++ [e])) = summaryCount (sentOf events))
    (hdetections : detectionsOf (events ++ [e]) = detectionsOf events)
    (hnumber : t.segmentNumber = s.segmentNumber)
    (hstage : ∀ k, s.stage.InHand k → t.stage.InHand k) : Counted (events ++ [e]) t := by
  obtain ⟨hword, k, hcount, hk⟩ := h
  exact ⟨by rw [hnumber, hword, hsummaries], k, by rw [hdetections, hsummaries, hcount],
    hstage k hk⟩

theorem step (h : Counted events s) (hstep : Step s e t) : Counted (events ++ [e]) t := by
  cases hstep.reporting with
  | quiet hsent hdetection hidle hsame =>
    refine h.same (by simp [hsent]) (by simp [hdetection]) hsame fun k hk => ?_
    by_cases hopen : ∀ queue, t.stage ≠ .refused queue
    · obtain ⟨hs, ht⟩ := hidle hopen
      exact (Stage.inHand_of_idle ht).mpr ((Stage.inHand_of_idle hs).mp hk)
    · obtain ⟨queue, hqueue⟩ := not_forall_not.mp hopen
      rw [hqueue]
      exact hk.le_one
  | status phase he hm hs ht hsame =>
    subst he
    refine h.same (summaryCount_published hm events) (detectionsOf_published _ _ _ _) hsame
      fun k hk => ?_
    exact (Stage.inHand_of_idle ht).mpr ((Stage.inHand_of_idle hs).mp hk)
  | alerted hs hfirst he hm hdecoded htime ht hsame =>
    subst he
    refine h.same (summaryCount_published hm events) (detectionsOf_published _ _ _ _) hsame
      fun k hk => ?_
    rw [hs] at hk
    rw [ht]
    exact hk
  | detected hs result he ht hsame =>
    subst he
    obtain ⟨hnumber, k, hdetections, hk⟩ := h
    obtain rfl : k = 0 := (Stage.inHand_of_idle hs).mp hk
    refine ⟨?_, 1, ?_, by rw [ht]; rfl⟩
    · rw [hsame, hnumber]
      simp [Event.sent?]
    · simp [hdetections, Event.sent?, Event.detection?]
  | summarised hs he hm hdecoded ht hnext =>
    subst he
    obtain ⟨hnumber, k, hdetections, hk⟩ := h
    obtain rfl : k = 1 := hs.inHand_iff.mp hk
    have hcount := summaryCount_published hm events
    rw [if_pos rfl] at hcount
    refine ⟨?_, 0, by rw [detectionsOf_published, hcount, hdetections], by rw [ht]; rfl⟩
    rw [hnext, hnumber, hcount, Int32.ofNat_add]
    rfl

end Counted

end

theorem Steps.counted {s t : Standing} {events : List Event} (h : Steps s events t)
    (hs : s.stage = .starting) (hnumber : s.segmentNumber = 0) : Counted events t := by
  induction h with
  | refl => exact ⟨hnumber, 0, rfl, by rw [hs]; rfl⟩
  | step _ hstep ih => exact ih.step hstep

/-! ## Runs -/

namespace JobRun

section

variable [Resolution] {σ δ π : Type} [VideoSource σ]

/-- What a run has left behind, whatever went wrong: a failure is the last that happens, and the
counts are right. -/
structure StopsAtOnce (e : JobRun σ δ π) (t : Trace Event (JobRun σ δ π) Unit) : Prop where
  /-- A message that its queue does not take. -/
  refused : ∀ before queue m after, t.events = before ++ .published queue m false :: after →
    after = [] ∧ ∃ reason, t.ending = .failed
      (.fatal .messageTransportError ("Failed to publish to " ++ queue ++ ": " ++ reason))
  /-- A control channel that fails. -/
  broken : ∀ before reason after, t.events = before ++ .polled (.fatal reason) :: after →
    after = [] ∧ t.ending = .failed (.fatal .unableToReadFromStandardIn reason)
  /-- A stall timeout that is over. -/
  stalled : ∀ timeout ∈ e.config.stallTimeout, ∀ before after,
    t.events = before ++ .phaseReport e.config .stalled true :: after →
      StallEnds e.config (e.stream.replay before) timeout after t.ending
  /-- Tracks that do not fit into a summary. -/
  unwritten : ∀ before job result after codecError,
    t.events = before ++ .detected job result :: after →
    let tracks := repairTracks (tracksOf result) job.startFrame job.stopFrame
    Wire.toMessage (⟨e.config.job, Int32.ofNat (summaryCount (sentOf before)), tracks⟩ :
      SegmentSummary) = .error codecError →
    Unwritten e.config tracks codecError after t.ending
  /-- The number of the segment to come. Its word is large enough if segments are not empty. -/
  segmentNumber : t.world.segmentNumber = Int32.ofNat (summaryCount (sentOf t.events)) ∧
    (0 < e.config.segmentSize →
      t.world.segmentNumber.toInt = summaryCount (sentOf t.events))
  detections : (detectionsOf t.events).length = summaryCount (sentOf t.events) ∨
    (detectionsOf t.events).length = summaryCount (sentOf t.events) + 1

variable [Detector δ] [Publisher π]

/-- A run that has neither come to its end nor is at a stall has failed. -/
theorem exists_steps (polls : List ControlStatus) (e : JobRun σ δ π) :
    ∃ t, Steps (e.standing .starting) ((run polls).run e).events t ∧
      ((run polls).run e).world.StandsAt t ∧ t.MayEnd ((run polls).run e).ending := by
  obtain ⟨t, hsteps, hat, hend⟩ := leads_run polls rfl e (standsAt_standing e .starting)
  refine ⟨t, hsteps, hat, ?_⟩
  cases hending : ((run polls).run e).ending with
  | value =>
    rw [hending] at hend
    exact .inl hend
  | failed error =>
    rw [hending] at hend
    exact .inr (.inr ⟨error, rfl, hend⟩)
  | waiting =>
    rw [hending] at hend
    exact .inr (.inl hend.2)

/-- A failure ends a run at once, and however a run ends, its counts are right. -/
theorem stopsAtOnce_run {e : JobRun σ δ π} (hframe : e.nextFrame = 0)
    (hnumber : e.segmentNumber = 0) (polls : List ControlStatus) :
    StopsAtOnce e ((run polls).run e) := by
  obtain ⟨t, hsteps, hat, hend⟩ := exists_steps polls e
  have hcounted := hsteps.counted rfl hnumber
  constructor
  case refused =>
    intro before queue m after hevents
    obtain ⟨hafter, hstage⟩ :=
      hsteps.last_of_dead Step.stage_eq_refused (·.stage_ne_refused queue) hevents
    obtain ⟨error, hending, hfail⟩ := by simpa [Standing.MayEnd, hstage] using hend
    obtain ⟨reason, rfl⟩ := hfail.of_refused hstage
    exact ⟨hafter, reason, hending⟩
  case broken =>
    intro before reason after hevents
    obtain ⟨hafter, hstage⟩ :=
      hsteps.last_of_dead Step.stage_eq_broken (·.stage_ne_broken reason) hevents
    obtain ⟨error, hending, hfail⟩ := by simpa [Standing.MayEnd, hstage] using hend
    rw [hfail.of_broken hstage] at hending
    exact ⟨hafter, hending⟩
  case stalled => exact (pervasive_heeds.run polls e).stalls
  case unwritten =>
    intro before job result after codecError hevents tracks hm
    rw [hevents] at hsteps
    obtain ⟨u, v, hbefore, hstep, hafter⟩ := hsteps.split
    obtain ⟨hfound, hsame⟩ := hstep.stage_eq_found
    have hconfig : v.config = e.config := hstep.config_eq.trans hbefore.config_eq
    have hsummary : v.summary tracks =
        ⟨e.config.job, Int32.ofNat (summaryCount (sentOf before)), tracks⟩ := by
      rw [Standing.summary, hconfig, hsame, (hbefore.counted rfl hnumber).segmentNumber_eq]
    rw [← hsummary] at hm
    rw [← hconfig]
    exact hafter.unwritten hfound hm hend
  case segmentNumber =>
    refine ⟨hat.segmentNumber.trans hcounted.segmentNumber_eq, fun hsize => ?_⟩
    rw [hat.segmentNumber]
    exact (hsteps.accounted rfl hframe hnumber hsize).segmentNumber
  case detections =>
    obtain ⟨k, hdetections, hk⟩ := hcounted.detections_eq
    have hle := hk.le_one
    omega

end

/-- A run whose stream is lost at the beginning, for longer than its stall timeout. -/
def stalledRun : JobRun Rehearsal.CuedSource Rehearsal.CuedDetector Rehearsal.Recorder :=
  { sampleRun with
    config := { sampleRun.config with stallAlertThreshold := 1, stallTimeout := some 3 }
    stream := ⟨{ reads := [false], opens := [false, false, false] }, "rtsp://cam/1", 0⟩ }

/-- The stalled run makes an attempt before it reports the stall, and two more before it fails. -/
theorem stopsAtOnce_stalledRun :
    StopsAtOnce stalledRun ((run []).run stalledRun) ∧
      sleepsOf ((run []).run stalledRun).events = [1000, 1000, 1000] ∧
      ∃ error, ((run []).run stalledRun).ending = .failed error ∧
        error.exitCode = .streamStalled := by
  refine ⟨stopsAtOnce_run rfl rfl [], by decide +kernel, ?_⟩
  have hcode : (match ((run []).run stalledRun).ending with
      | .failed error => error.exitCode
      | _ => .success) = .streamStalled := by
    decide +kernel
  split at hcode
  · rename_i error hending
    exact ⟨error, hending, hcode⟩
  · cases hcode

end JobRun

end LiveDetection
