import LiveDetection.Run.JobRun

/-!
# What carries over from the parts of a run

Many properties hold of a sequence of sessions if they hold of its members. Such a property holds
of a whole run once it holds of the calls that a run makes.
-/

namespace LiveDetection.JobRun

variable [Resolution] {σ δ π : Type} [VideoSource σ] [Detector δ] [Publisher π]

/-- A property of sessions that carries over to sequences and holds of the parts of a run. -/
structure Pervasive (P : ∀ α : Type, Session Event (JobRun σ δ π) α → Prop) : Prop where
  pure : ∀ {α : Type} (a : α), P α (Pure.pure a)
  fail : ∀ {α : Type} (error : RunError), P α (Session.fail error)
  bind : ∀ {α β : Type} {p : Session Event (JobRun σ δ π) β}
    {f : β → Session Event (JobRun σ δ π) α}, P β p → (∀ b, P α (f b)) → P α (p >>= f)
  world : P _ Session.world
  /-- The counts go on. -/
  update : ∀ {change : JobRun σ δ π → JobRun σ δ π},
    (∀ e, (change e).config = e.config ∧ (change e).stream = e.stream) → P _ (.update change)
  reportPhase : ∀ {phase : RunPhase}, phase ≠ .stalled → P _ (reportPhase phase)
  alert : ∀ {c : JobConfig} {queue : String} {alert : ActivityAlert}, alert.job = c.job →
    P _ (send queue alert)
  summary : ∀ {c : JobConfig} {queue : String} {summary : SegmentSummary}, summary.job = c.job →
    P _ (send queue summary)
  notePoll : ∀ status, P _ (notePoll status)
  detect : ∀ job, P _ (detect job)
  finish : P _ finish
  awaitFrame : P _ awaitFrame

namespace Pervasive

variable {P : ∀ α : Type, Session Event (JobRun σ δ π) α → Prop} (h : Pervasive P)

include h

theorem awaitFrames (n : Nat) : P _ (awaitFrames n) := by
  induction n with
  | zero => exact h.pure []
  | succ n ih => exact h.bind h.awaitFrame fun _ => h.bind ih fun _ => h.pure _

theorem runSegment : P _ runSegment := by
  refine h.bind h.world fun e => ?_
  have hsummary : ∀ tracks, P _ (do
      send e.config.transport.summaryReportQueue
        (⟨e.config.job, e.segmentNumber, tracks⟩ : SegmentSummary)
      .update fun e => { e with segmentNumber := e.segmentNumber + 1 }) :=
    fun _ => h.bind (h.summary (c := e.config) rfl) fun _ => h.update fun _ => ⟨rfl, rfl⟩
  simp only []
  cases stopFrame? e.nextFrame e.config.segmentSize with
  | none => exact h.fail _
  | some stop =>
    refine h.bind (h.awaitFrames _) fun _ => ?_
    refine h.bind (h.update fun _ => ⟨rfl, rfl⟩) fun _ => ?_
    refine h.bind (h.detect _) fun found => ?_
    cases firstActivity? (repairTracks found e.nextFrame stop) with
    | none => exact hsummary _
    | some frameIndex =>
      refine h.bind h.world fun _ => ?_
      exact h.bind (h.alert (c := e.config) rfl) fun _ => hsummary _

theorem runSegments (polls : List ControlStatus) : P _ (runSegments polls) := by
  induction polls with
  | nil => exact h.bind h.runSegment fun _ => h.notePoll .quit
  | cons status polls ih =>
    refine h.bind h.runSegment fun _ => ?_
    refine h.bind (h.notePoll status) fun _ => ?_
    cases status with
    | proceed => exact ih
    | quit => exact h.pure ()
    | fatal reason => exact h.fail _

theorem run (polls : List ControlStatus) : P _ (run polls) := by
  refine h.bind (h.reportPhase (by simp)) fun _ => ?_
  refine h.bind (h.runSegments polls) fun _ => ?_
  exact h.bind (h.reportPhase (by simp)) fun _ => h.finish

end Pervasive

end LiveDetection.JobRun
