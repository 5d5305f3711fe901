import LiveDetection.Detector.Start
import LiveDetection.Run.JobRun

/-!
# Launching a job

A launch takes the steps from a path to a running job in a fixed order. What a step finds is
up to the site; the first step that fails ends the launch. Every attempt of a step is an
event, and so is everything that the running job does.
-/

namespace LiveDetection

/-- The steps of a launch, in their order. -/
inductive LaunchStep where
  | readConfig
  | openOutlet
  | makeRunDirectory
  | loadComponent
  | initComponent
  | checkVideo
  | connectStream
  | runJob
deriving DecidableEq, Repr

/-- The exit codes of the errors with which a step may fail. -/
def LaunchStep.exitCodes : LaunchStep → List ExitCode
  | readConfig => [.invalidJobConfig]
  | openOutlet => [.invalidJobConfig, .messageTransportError, .unexpectedError]
  | makeRunDirectory => [.unexpectedError]
  | loadComponent => [.componentLoadError]
  | initComponent => [.componentInitError]
  | checkVideo => [.componentUnsupported]
  | connectStream => [.unableToConnectToStream]
  | runJob => [.unexpectedError, .unableToReadFromStandardIn, .streamStalled,
      .messageTransportError]

/-- What happens during a launch. -/
inductive LaunchEvent where
  /-- A step was attempted. -/
  | attempted (step : LaunchStep)
  /-- The running job did something. -/
  | ran (event : Event)

/-- What a launch is asked to do. -/
structure LaunchOptions where
  /-- The path of the job configuration. -/
  jobConfig : String
  /-- Print messages instead of sending them. -/
  dryRun : Bool := false
deriving DecidableEq, Repr

/-- What the steps of a launch find, with the outside `ω`, sources `σ` and components `δ`. The
errors of a step have its exit codes. -/
structure Site (ω σ δ : Type) where
  /-- The checked settings in a file. -/
  readConfig : String → ω → Except RunError JobConfig
  /-- Open the outlet that an address names. -/
  openOutlet : String → ω → Except RunError Unit × ω
  /-- Use standard output as outlet. -/
  useStandardOutput : ω → ω
  /-- Set variables of the process. -/
  setVariables : Properties → ω → ω
  /-- Where the component may keep its files. -/
  runDirectory : JobConfig → ω → String
  /-- Make a directory and all that are missing above it. -/
  makeDirectories : String → ω → Except RunError Unit × ω
  /-- The component in a library. -/
  loadComponent : String → ω → Except RunError δ
  /-- A source for the stream of a job. -/
  source : JobConfig → ω → σ
  /-- The answers of the control channel to the polls of the job. -/
  polls : ω → List ControlStatus
  /-- The milliseconds since the epoch that the job is told. -/
  epochMillis : Occasion → Int64
  exitCode_readConfig {path : String} {w : ω} {e : RunError} (h : readConfig path w = .error e) :
    e.exitCode ∈ LaunchStep.readConfig.exitCodes
  exitCode_openOutlet {uri : String} {w : ω} {e : RunError} (h : (openOutlet uri w).1 = .error e) :
    e.exitCode ∈ LaunchStep.openOutlet.exitCodes
  exitCode_makeDirectories {path : String} {w : ω} {e : RunError}
    (h : (makeDirectories path w).1 = .error e) : e.exitCode ∈ LaunchStep.makeRunDirectory.exitCodes
  exitCode_loadComponent {path : String} {w : ω} {e : RunError}
    (h : loadComponent path w = .error e) : e.exitCode ∈ LaunchStep.loadComponent.exitCodes

namespace Site

variable [Resolution] {ω σ δ α : Type} [VideoSource σ] [Detector δ] [Publisher ω]

/-- A session of a launch. -/
abbrev Launch (ω α : Type) : Type := Session LaunchEvent ω α

/-- Attempt a step. -/
def attempt (step : LaunchStep) (p : ω → Except RunError α × ω) : Launch ω α :=
  ⟨fun w =>
    match p w with
    | (.ok a, w) => ⟨.value a, [.attempted step], w⟩
    | (.error e, w) => ⟨.failed e, [.attempted step], w⟩⟩

/-- Load the component of a job and get it ready for video. -/
def setUpComponent (site : Site ω σ δ) (config : JobConfig) : Launch ω (NamedDetector δ) := do
  .update (site.setVariables config.component.environment)
  let dir := site.runDirectory config (← Session.world)
  attempt .makeRunDirectory (site.makeDirectories dir)
  let path := config.component.libraryPath
  let detector ← attempt .loadComponent fun w => (site.loadComponent path w, w)
  let ready := NamedDetector.makeReady dir ⟨path, detector⟩
  attempt .initComponent fun w => (ready.1, w)
  attempt .checkVideo fun w => (ready.2.requireVideo, w)
  return ready.2

/-- A job on a stream that was opened. -/
def job (site : Site ω σ δ) (config : JobConfig) (detector : NamedDetector δ)
    (stream : LiveStream σ) (w : ω) : JobRun σ δ ω where
  config
  stream
  detector := detector.detector
  publisher := w
  epochMillis := site.epochMillis

/-- Run a job, and let go of its stream afterwards. -/
def runJob (site : Site ω σ δ) (config : JobConfig) (detector : NamedDetector δ)
    (stream : LiveStream σ) : Launch ω Unit :=
  ⟨fun w =>
    let trace := (JobRun.run (site.polls w)).run (site.job config detector stream w)
    let closing := LiveStream.disconnect.run trace.world.stream
    ⟨trace.ending, .attempted .runJob :: (trace.events ++ closing.events).map .ran,
      trace.world.publisher⟩⟩

/-- Connect to the stream of a job, and run the job on it. -/
def startJob (site : Site ω σ δ) (config : JobConfig) (detector : NamedDetector δ) :
    Launch ω Unit := do
  let source := site.source config (← Session.world)
  let connected := LiveStream.connect source config.streamUri 0
  attempt .connectStream fun w => (connected.1, w)
  site.runJob config detector connected.2.2

/-- Launch a job. -/
def launch (site : Site ω σ δ) (options : LaunchOptions) : Launch ω Unit := do
  let config ← attempt .readConfig fun w => (site.readConfig options.jobConfig w, w)
  if options.dryRun then .update site.useStandardOutput
  else attempt .openOutlet (site.openOutlet config.transport.uri)
  let detector ← site.setUpComponent config
  site.startJob config detector

end Site

end LiveDetection
