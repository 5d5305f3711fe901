import LiveDetection.Cli.Program
import LiveDetection.Proofs.Launch.Points
import LiveDetection.Proofs.Run.Frames
import LiveDetection.Rehearsal.Player

/-!
# The verdict on a launch

The program attempts the steps of a launch in their order. The first step that fails is the last
one, and its error alone decides the exit code and the line in the log. The job does nothing before
all other steps have passed, and the exit code is that of a success exactly when the report of the
stop goes out.
-/

namespace LiveDetection

open Cli

/-! ## What a launch attempts and what its job does -/

/-- The step that was attempted with an event. -/
def LaunchEvent.step? : LaunchEvent → Option LaunchStep
  | attempted step => some step
  | ran _ => none

/-- What the running job did with an event. -/
def LaunchEvent.event? : LaunchEvent → Option Event
  | attempted _ => none
  | ran event => some event

/-- The steps that were attempted, in order. -/
def attemptedOf (events : List LaunchEvent) : List LaunchStep := events.filterMap LaunchEvent.step?

/-- What the running job did, in order. -/
def ranOf (events : List LaunchEvent) : List Event := events.filterMap LaunchEvent.event?

@[simp] theorem attemptedOf_append (front back : List LaunchEvent) :
    attemptedOf (front ++ back) = attemptedOf front ++ attemptedOf back :=
  List.filterMap_append

@[simp] theorem ranOf_append (front back : List LaunchEvent) :
    ranOf (front ++ back) = ranOf front ++ ranOf back :=
  List.filterMap_append

@[simp] theorem attemptedOf_cons_attempted (step : LaunchStep) (events : List LaunchEvent) :
    attemptedOf (.attempted step :: events) = step :: attemptedOf events := rfl

@[simp] theorem ranOf_cons_attempted (step : LaunchStep) (events : List LaunchEvent) :
    ranOf (.attempted step :: events) = ranOf events := rfl

@[simp] theorem attemptedOf_attempted (steps : List LaunchStep) :
    attemptedOf (steps.map .attempted) = steps := by
  simp [attemptedOf, List.filterMap_map, LaunchEvent.step?, Function.comp_def]

@[simp] theorem ranOf_attempted (steps : List LaunchStep) : ranOf (steps.map .attempted) = [] := by
  simp [ranOf, List.filterMap_map, LaunchEvent.event?, Function.comp_def]

@[simp] theorem attemptedOf_ran (events : List Event) : attemptedOf (events.map .ran) = [] := by
  simp [attemptedOf, List.filterMap_map, LaunchEvent.step?, Function.comp_def]

@[simp] theorem ranOf_ran (events : List Event) : ranOf (events.map .ran) = events := by
  simp [ranOf, List.filterMap_map, LaunchEvent.event?, Function.comp_def]

namespace Site

variable [Resolution] {ω σ δ : Type} [VideoSource σ] [Detector δ] [Publisher ω]

/-! ## The job of a launch -/

section

variable (site : Site ω σ δ) (config : JobConfig) (detector : NamedDetector δ)
  (stream : LiveStream σ) (w : ω)

/-- The job is attempted, and whatever happens then is done by it. -/
theorem events_runJob :
    ((site.runJob config detector stream).run w).events = .attempted .runJob ::
      (ranOf ((site.runJob config detector stream).run w).events).map .ran := by
  simp only [runJob, ranOf_cons_attempted, ranOf_ran]

theorem attemptedOf_runJob :
    attemptedOf ((site.runJob config detector stream).run w).events = [.runJob] := by
  rw [events_runJob, attemptedOf_cons_attempted, attemptedOf_ran]

/-- The job ends well if and only if the report of the stop goes out. -/
theorem ending_runJob_eq_value_iff :
    ((site.runJob config detector stream).run w).ending = .value () ↔
      ∃ x ∈ ranOf ((site.runJob config detector stream).run w).events,
        x.Reports config (.status .stopped) true := by
  let run := (JobRun.run (site.polls w)).run (site.job config detector stream w)
  have hran : ranOf ((site.runJob config detector stream).run w).events =
      run.events ++ [.closed] := ranOf_ran _
  have hclosed : ¬ Event.closed.Reports config (.status .stopped) true := by
    simp [Event.Reports]
  rw [hran]
  simp only [List.mem_append, List.mem_singleton, or_and_right, exists_or, exists_eq_left, hclosed,
    or_false]
  exact JobRun.ending_eq_value_iff (site.polls w) (site.job config detector stream w)

end

variable {site : Site ω σ δ} {options : LaunchOptions} {p q : LaunchPoint ω σ δ} {w : ω}
  {t : Trace LaunchEvent ω Unit} {e : RunError} {filter : LogFilter}

/-! ## Where a launch ends -/

theorem Goes.events_eq (ht : Goes site options p t) :
    t.events = (attemptedOf t.events).map .attempted ++ (ranOf t.events).map .ran := by
  induction ht with
  | failed => rfl
  | passed _ _ ih => exact congrArg (List.cons _) ih
  | ran config detector stream w =>
    rw [attemptedOf_runJob]
    exact site.events_runJob config detector stream w

/-- A launch that comes to a step that fails has attempted the steps up to it, and ends with its
error. -/
theorem Goes.failed_of_reaches (ht : Goes site options (.readConfig w) t)
    (hp : site.Reaches options w p) (h : Fails site options p e) (hstep : p.step ≠ .runJob) :
    t.ending = .failed e ∧ attemptedOf t.events = p.step.before options.dryRun ++ [p.step] ∧
      ranOf t.events = [] := by
  obtain ⟨rest, hgoes, rfl⟩ := ht.of_reaches hp
  obtain ⟨hending, hevents⟩ := hgoes.of_fails h hstep
  refine ⟨hending, ?_, ?_⟩
  · rw [attemptedOf_append, attemptedOf_attempted, hevents]
    rfl
  · rw [ranOf_append, ranOf_attempted, hevents]
    rfl

/-- A launch that comes to the job has attempted all steps, and ends as the job does. -/
theorem Goes.job_of_reaches {config : JobConfig} {detector : NamedDetector δ}
    {stream : LiveStream σ} {later : ω} (ht : Goes site options (.readConfig w) t)
    (hp : site.Reaches options w (.runJob config detector stream later)) :
    t.ending = ((site.runJob config detector stream).run later).ending ∧
      attemptedOf t.events = LaunchStep.sequence options.dryRun ∧
      ranOf t.events = ranOf ((site.runJob config detector stream).run later).events := by
  obtain ⟨rest, hgoes, rfl⟩ := ht.of_reaches hp
  obtain rfl := hgoes.eq_run
  refine ⟨rfl, ?_, ?_⟩
  · rw [attemptedOf_append, attemptedOf_attempted, attemptedOf_runJob]
    exact LaunchStep.before_runJob_concat options.dryRun
  · rw [ranOf_append, ranOf_attempted, List.nil_append]

/-- A launch ends well if and only if its job reports the stop. -/
theorem Goes.ending_eq_value_iff (ht : Goes site options (.readConfig w) t) :
    t.ending = .value () ↔ ∃ config detector stream later,
      site.Reaches options w (.runJob config detector stream later) ∧
        ∃ x ∈ ranOf t.events, x.Reports config (.status .stopped) true := by
  obtain ⟨p, hp, ⟨e, h, hstep⟩ | ⟨config, detector, stream, later, rfl⟩⟩ := ht.exists_reaches
  · obtain ⟨hending, -, hran⟩ := ht.failed_of_reaches hp h hstep
    simp [hending, hran]
  · obtain ⟨hending, -, hran⟩ := ht.job_of_reaches hp
    rw [hending, hran, ending_runJob_eq_value_iff]
    constructor
    · intro hstop
      exact ⟨config, detector, stream, later, hp, hstop⟩
    · rintro ⟨config', detector', stream', later', hp', hstop⟩
      obtain ⟨rfl, -⟩ := LaunchPoint.runJob.inj (Reaches.eq_of_step_eq_runJob hp' hp rfl rfl)
      exact hstop

/-! ## The verdict -/

/-- The error with which a launch ends has an exit code of a step. -/
theorem Goes.exitCode_mem (ht : Goes site options p t) (h : t.ending = .failed e) :
    ∃ step : LaunchStep, e.exitCode ∈ step.exitCodes := by
  induction ht with
  | failed hfails =>
    cases h
    exact ⟨_, hfails.exitCode_mem⟩
  | passed _ _ ih => exact ih h
  | ran => exact ⟨.runJob, JobRun.exitCode_of_failed h⟩

end Site

namespace Cli

section

variable [Resolution] {ω σ δ : Type} [VideoSource σ] [Detector δ] [Publisher ω]

end

/-- On a machine without files, the first step is the one that fails. -/
example :
    let machine : Machine Rehearsal.PlayerSystem := { programs := { program := "ffmpeg" } }
    (runProgram ["job.toml"] machine).1.line =
      some ("invalid job configuration: failed to read job.toml: No such file or directory " ++
        "(os error 2) (exit code 3: The job configuration file is invalid)") := by
  decide +kernel

end Cli

end LiveDetection
