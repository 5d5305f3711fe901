import LiveDetection.Proofs.Run.Endings
import Mathlib.Logic.Relation

/-!
# The points of a launch

A launch stands at a point in front of each of its steps, with what it has found so far. Whether a
step passes, and to which point, or fails, and with which error, is up to the site. A launch goes
from point to point until a step fails or the job runs, and it goes through the steps in their
order.
-/

namespace LiveDetection

open Relation

namespace LaunchStep

/-- The steps in their order. A dry run opens no outlet. -/
def sequence (dryRun : Bool) : List LaunchStep :=
  [readConfig] ++ (if dryRun then [] else [openOutlet]) ++
    [makeRunDirectory, loadComponent, initComponent, checkVideo, connectStream, runJob]

/-- The steps in front of a step. -/
def before (dryRun : Bool) (step : LaunchStep) : List LaunchStep :=
  (sequence dryRun).takeWhile (· ≠ step)

/-- A step stands directly in front of another step of the sequence. -/
def Precedes (dryRun : Bool) (step next : LaunchStep) : Prop :=
  next ∈ sequence dryRun ∧ next.before dryRun = step.before dryRun ++ [step]

instance (dryRun : Bool) (step next : LaunchStep) : Decidable (Precedes dryRun step next) :=
  inferInstanceAs (Decidable (_ ∧ _))

theorem before_runJob_concat (dryRun : Bool) :
    runJob.before dryRun ++ [runJob] = sequence dryRun := by
  cases dryRun <;> rfl

end LaunchStep

/-- Where a launch stands in front of a step, and what it has found by then. -/
inductive LaunchPoint (ω σ δ : Type) where
  | readConfig (w : ω)
  | openOutlet (config : JobConfig) (w : ω)
  | makeRunDirectory (config : JobConfig) (w : ω)
  | loadComponent (config : JobConfig) (dir : String) (w : ω)
  | initComponent (config : JobConfig) (dir : String) (detector : NamedDetector δ) (w : ω)
  | checkVideo (config : JobConfig) (detector : NamedDetector δ) (w : ω)
  | connectStream (config : JobConfig) (detector : NamedDetector δ) (w : ω)
  | runJob (config : JobConfig) (detector : NamedDetector δ) (stream : LiveStream σ) (w : ω)

/-- The step that a launch takes at a point. -/
def LaunchPoint.step {ω σ δ : Type} : LaunchPoint ω σ δ → LaunchStep
  | readConfig _ => .readConfig
  | openOutlet _ _ => .openOutlet
  | makeRunDirectory _ _ => .makeRunDirectory
  | loadComponent _ _ _ => .loadComponent
  | initComponent _ _ _ _ => .initComponent
  | checkVideo _ _ _ => .checkVideo
  | connectStream _ _ _ => .connectStream
  | runJob _ _ _ _ => .runJob

namespace Site

variable {ω σ δ : Type} [VideoSource σ] [Detector δ]

/-- The outside with the variables of a component exported. -/
def exported (site : Site ω σ δ) (config : JobConfig) (w : ω) : ω :=
  site.setVariables config.component.environment w

/-- The run directory of a component, which its variables may name. -/
def directory (site : Site ω σ δ) (config : JobConfig) (w : ω) : String :=
  site.runDirectory config (site.exported config w)

/-- The first connection to the stream of a job. -/
def connection (site : Site ω σ δ) (config : JobConfig) (w : ω) :
    Except RunError Unit × List Event × LiveStream σ :=
  LiveStream.connect (site.source config w) config.streamUri 0

/-- A step finds what it needs, and leads to the next. -/
inductive Passes (site : Site ω σ δ) (options : LaunchOptions) :
    LaunchPoint ω σ δ → LaunchPoint ω σ δ → Prop
  | readConfig {w : ω} {config : JobConfig} (h : site.readConfig options.jobConfig w = .ok config)
    (hdry : options.dryRun = false) : Passes site options (.readConfig w) (.openOutlet config w)
  | readConfigDry {w : ω} {config : JobConfig}
    (h : site.readConfig options.jobConfig w = .ok config) (hdry : options.dryRun = true) :
    Passes site options (.readConfig w) (.makeRunDirectory config (site.useStandardOutput w))
  | openOutlet {config : JobConfig} {w later : ω}
    (h : site.openOutlet config.transport.uri w = (.ok (), later)) (hdry : options.dryRun = false) :
    Passes site options (.openOutlet config w) (.makeRunDirectory config later)
  | makeRunDirectory {config : JobConfig} {w later : ω}
    (h : site.makeDirectories (site.directory config w) (site.exported config w) =
      (.ok (), later)) :
    Passes site options (.makeRunDirectory config w)
      (.loadComponent config (site.directory config w) later)
  | loadComponent {config : JobConfig} {dir : String} {w : ω} {d : δ}
    (h : site.loadComponent config.component.libraryPath w = .ok d) :
    Passes site options (.loadComponent config dir w)
      (.initComponent config dir ⟨config.component.libraryPath, d⟩ w)
  | initComponent {config : JobConfig} {dir : String} {detector ready : NamedDetector δ} {w : ω}
    (h : detector.makeReady dir = (.ok (), ready)) :
    Passes site options (.initComponent config dir detector w) (.checkVideo config ready w)
  | checkVideo {config : JobConfig} {detector : NamedDetector δ} {w : ω}
    (h : detector.requireVideo = .ok ()) :
    Passes site options (.checkVideo config detector w) (.connectStream config detector w)
  | connectStream {config : JobConfig} {detector : NamedDetector δ} {w : ω}
    (h : (site.connection config w).1 = .ok ()) :
    Passes site options (.connectStream config detector w)
      (.runJob config detector (site.connection config w).2.2 w)

/-- A step fails with an error. -/
inductive Fails [Resolution] [Publisher ω] (site : Site ω σ δ) (options : LaunchOptions) :
    LaunchPoint ω σ δ → RunError → Prop
  | readConfig {w : ω} {e : RunError} (h : site.readConfig options.jobConfig w = .error e) :
    Fails site options (.readConfig w) e
  | openOutlet {config : JobConfig} {w : ω} {e : RunError}
    (h : (site.openOutlet config.transport.uri w).1 = .error e) :
    Fails site options (.openOutlet config w) e
  | makeRunDirectory {config : JobConfig} {w : ω} {e : RunError}
    (h : (site.makeDirectories (site.directory config w) (site.exported config w)).1 =
      .error e) : Fails site options (.makeRunDirectory config w) e
  | loadComponent {config : JobConfig} {dir : String} {w : ω} {e : RunError}
    (h : site.loadComponent config.component.libraryPath w = .error e) :
    Fails site options (.loadComponent config dir w) e
  | initComponent {config : JobConfig} {dir : String} {detector : NamedDetector δ} {w : ω}
    {e : RunError} (h : (detector.makeReady dir).1 = .error e) :
    Fails site options (.initComponent config dir detector w) e
  | checkVideo {config : JobConfig} {detector : NamedDetector δ} {w : ω} {e : RunError}
    (h : detector.requireVideo = .error e) : Fails site options (.checkVideo config detector w) e
  | connectStream {config : JobConfig} {detector : NamedDetector δ} {w : ω} {e : RunError}
    (h : (site.connection config w).1 = .error e) :
    Fails site options (.connectStream config detector w) e
  | runJob {config : JobConfig} {detector : NamedDetector δ} {stream : LiveStream σ} {w : ω}
    {e : RunError} (h : ((site.runJob config detector stream).run w).ending = .failed e) :
    Fails site options (.runJob config detector stream w) e

/-- What a launch leaves behind from a point on. -/
inductive Goes [Resolution] [Publisher ω] (site : Site ω σ δ) (options : LaunchOptions) :
    LaunchPoint ω σ δ → Trace LaunchEvent ω Unit → Prop
  | failed {p : LaunchPoint ω σ δ} {e : RunError} (h : Fails site options p e)
    (hstep : p.step ≠ .runJob) (w : ω) : Goes site options p ⟨.failed e, [.attempted p.step], w⟩
  | passed {p q : LaunchPoint ω σ δ} {t : Trace LaunchEvent ω Unit} (h : Passes site options p q)
    (ht : Goes site options q t) :
    Goes site options p { t with events := .attempted p.step :: t.events }
  | ran (config : JobConfig) (detector : NamedDetector δ) (stream : LiveStream σ) (w : ω) :
    Goes site options (.runJob config detector stream w)
      ((site.runJob config detector stream).run w)

variable {site : Site ω σ δ} {options : LaunchOptions} {p q r : LaunchPoint ω σ δ} {w : ω}

/-! ## Steps that pass -/

theorem Passes.step_ne_runJob (h : Passes site options p q) : p.step ≠ .runJob := by
  cases h <;> simp [LaunchPoint.step]

/-- A step leads to the one behind it in the sequence. -/
theorem Passes.precedes (h : Passes site options p q) :
    p.step.Precedes options.dryRun q.step := by
  cases h with
  -- Only these depend on whether the run is dry.
  | readConfig h hdry | readConfigDry h hdry | openOutlet h hdry =>
    simp only [LaunchPoint.step, hdry]
    decide
  | _ =>
    simp only [LaunchPoint.step]
    cases options.dryRun <;> decide

/-- What a step finds determines where it leads. -/
theorem Passes.eq (h : Passes site options p q) (h' : Passes site options p r) : q = r := by
  cases h <;> cases h' <;> simp_all

/-- A launch from an outside comes to a point, since all steps in front of it pass. -/
def Reaches (site : Site ω σ δ) (options : LaunchOptions) (w : ω) (p : LaunchPoint ω σ δ) : Prop :=
  ReflTransGen (Passes site options) (.readConfig w) p

/-- The job runs at one point at most. -/
theorem Reaches.eq_of_step_eq_runJob (hp : site.Reaches options w p) (hq : site.Reaches options w q)
    (hstep : p.step = .runJob) (hstep' : q.step = .runJob) : p = q := by
  have hlast : ∀ {p q : LaunchPoint ω σ δ}, p.step = .runJob →
      ReflTransGen (Passes site options) p q → p = q := by
    intro p q hstep h
    cases h.cases_head with
    | inl heq => exact heq
    | inr hnext =>
      obtain ⟨r, hpass, -⟩ := hnext
      exact absurd hstep hpass.step_ne_runJob
  have hunique : Relator.RightUnique (Passes site options) := fun _ _ _ => Passes.eq
  cases ReflTransGen.total_of_right_unique hunique hp hq with
  | inl h => exact hlast hstep h
  | inr h => exact (hlast hstep' h).symm

section

variable [Resolution] [Publisher ω] {t : Trace LaunchEvent ω Unit} {e : RunError}

/-- A step that passes does not fail. -/
theorem Passes.not_fails (h : Passes site options p q) : ¬ Fails site options p e := by
  intro hfails
  cases h <;> cases hfails <;> simp_all

theorem Fails.eq {e' : RunError} (h : Fails site options p e) (h' : Fails site options p e') :
    e = e' := by
  cases h <;> cases h' <;> simp_all

/-- The error of a step has one of its exit codes. -/
theorem Fails.exitCode_mem (h : Fails site options p e) : e.exitCode ∈ p.step.exitCodes := by
  cases h with
  | readConfig h => exact site.exitCode_readConfig h
  | openOutlet h => exact site.exitCode_openOutlet h
  | makeRunDirectory h => exact site.exitCode_makeDirectories h
  | loadComponent h => exact site.exitCode_loadComponent h
  | initComponent h =>
    rw [NamedDetector.eq_initError h]
    exact List.mem_singleton_self _
  | checkVideo h =>
    rw [NamedDetector.eq_unsupportedError h]
    exact List.mem_singleton_self _
  | connectStream h =>
    rw [LiveStream.eq_connectError h]
    exact List.mem_singleton_self _
  | runJob h => exact JobRun.exitCode_of_failed h

/-! ## A launch goes from point to point -/

/-- A launch has attempted the steps in front of every point that it reaches, and goes on there. -/
theorem Goes.of_reaches (ht : Goes site options (.readConfig w) t) (h : site.Reaches options w p) :
    ∃ rest, Goes site options p rest ∧ t =
      { rest with
        events := (p.step.before options.dryRun).map .attempted ++ rest.events } := by
  induction h with
  | refl => exact ⟨t, ht, rfl⟩
  | tail _ hlast ih =>
    -- The last step passes, so the launch neither fails there nor goes elsewhere.
    obtain ⟨rest, hgoes, rfl⟩ := ih
    cases hgoes with
    | failed hfails => exact absurd hfails hlast.not_fails
    | passed hpass hgoes =>
      obtain rfl := hpass.eq hlast
      refine ⟨_, hgoes, ?_⟩
      simp [hlast.precedes.2]
    | ran => cases hlast

/-- A launch comes to a step that fails or to the job. -/
theorem Goes.exists_reaches (h : Goes site options p t) :
    ∃ q, ReflTransGen (Passes site options) p q ∧
      ((∃ e, Fails site options q e ∧ q.step ≠ .runJob) ∨
        ∃ config detector stream later, q = .runJob config detector stream later) := by
  induction h with
  | failed h hstep => exact ⟨_, .refl, .inl ⟨_, h, hstep⟩⟩
  | passed h _ ih =>
    obtain ⟨q, hq, hend⟩ := ih
    exact ⟨q, .head h hq, hend⟩
  | ran => exact ⟨_, .refl, .inr ⟨_, _, _, _, rfl⟩⟩

/-- At a step that fails, a launch attempts the step and no other, and ends with its error. -/
theorem Goes.of_fails (ht : Goes site options p t) (h : Fails site options p e)
    (hstep : p.step ≠ .runJob) : t.ending = .failed e ∧ t.events = [.attempted p.step] := by
  cases ht with
  | failed h' =>
    obtain rfl := h'.eq h
    exact ⟨rfl, rfl⟩
  | passed hpass => exact absurd h hpass.not_fails
  | ran => exact absurd rfl hstep

theorem Goes.eq_run {config : JobConfig} {detector : NamedDetector δ} {stream : LiveStream σ}
    (ht : Goes site options (.runJob config detector stream w) t) :
    t = (site.runJob config detector stream).run w := by
  cases ht with
  | failed _ hstep => exact absurd rfl hstep
  | passed hpass => cases hpass
  | ran => rfl

end

end Site

end LiveDetection
