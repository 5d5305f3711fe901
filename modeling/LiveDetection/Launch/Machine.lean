import LiveDetection.Capture.Decoder
import LiveDetection.Control.Channel
import LiveDetection.Detector.Motion
import LiveDetection.Job.Load
import LiveDetection.Launch.Basic
import LiveDetection.Publish.Outlet

/-!
# Machines

A machine is all that the program finds outside of itself: files, outlets, variables,
component libraries, decoder programs and the control channel.
-/

namespace LiveDetection

/-- The outside of the program, with programs `ℓ`. -/
structure Machine (ℓ : Type) where
  outside : Outside := {}
  environment : Environment := {}
  /-- The libraries that hold the motion component. -/
  motionLibraries : List String := []
  programs : ℓ
  /-- The reads of the control channel, up to its end. -/
  control : List ChannelRead := []
  /-- Milliseconds since the epoch at the start. -/
  startMillis : Nat := 0

namespace Machine

variable {ℓ : Type}

/-- A change of the outlet and the files. -/
def onOutside {α : Type} (p : Outside → α × Outside) (m : Machine ℓ) : α × Machine ℓ :=
  let answer := p m.outside
  (answer.1, { m with outside := answer.2 })

instance : Publisher (Machine ℓ) where
  publish queue message := onOutside (Outside.deliver queue message)

/-- Make a directory and all that are missing above it. -/
def makeDirectories (path : String) (m : Machine ℓ) : Except RunError Unit × Machine ℓ :=
  m.onOutside fun o =>
    match o.files.makeDirectories (.ofText path) with
    | (.ok (), files) => (.ok (), { o with files := files })
    | (.error e, files) => (.error (.io e.message), { o with files := files })

theorem exitCode_of_makeDirectories {path : String} {m : Machine ℓ} {e : RunError}
    (h : (m.makeDirectories path).1 = .error e) : e.exitCode = .unexpectedError := by
  simp only [makeDirectories, onOutside] at h
  split at h
  · cases h
  · cases h
    rfl

/-- The component in a library. -/
def loadComponent (path : String) (m : Machine ℓ) : Except RunError MotionDetector :=
  if m.motionLibraries.contains path then .ok {}
  else .error (.componentLoad (path ++ ": not a component library"))

theorem exitCode_of_loadComponent {path : String} {m : Machine ℓ} {e : RunError}
    (h : m.loadComponent path = .error e) : e.exitCode = .componentLoadError := by
  rw [loadComponent] at h
  split at h
  · cases h
  · cases h
    rfl

variable [Resolution]

/-- The decoder for the stream of a job. -/
def source (config : JobConfig) (m : Machine ℓ) : DecoderSource ℓ where
  system := m.programs
  program := m.environment.decoder
  width := config.frameWidth
  height := config.frameHeight
  timeout := config.stallAlertTicks

/-- What polls see once the control channel has said all that it has to say. -/
def finalStatus (m : Machine ℓ) : ControlStatus := (Control.watch m.control).status

/-- What a launch finds on a machine. The control channel has said all that it has to say before
the first poll. -/
def site (startMillis : Nat) : Site (Machine ℓ) (DecoderSource ℓ) MotionDetector where
  readConfig path m := JobConfig.load m.outside.files path
  openOutlet uri := onOutside (Outside.openOutlet uri)
  useStandardOutput m := { m with outside.outlet := .standardOutput }
  setVariables entries m := { m with environment := m.environment.setAll entries }
  runDirectory config m := config.runDirectory m.environment
  makeDirectories
  loadComponent
  source
  polls m := [m.finalStatus]
  epochMillis occasion := Int64.ofNat (startMillis + occasion.now / Resolution.perMilli)
  exitCode_readConfig h := List.mem_singleton.mpr (JobConfig.exitCode_of_load h)
  exitCode_openOutlet h := Outside.exitCode_of_openOutlet h
  exitCode_makeDirectories h := List.mem_singleton.mpr (exitCode_of_makeDirectories h)
  exitCode_loadComponent h := List.mem_singleton.mpr (exitCode_of_loadComponent h)

end Machine

end LiveDetection
