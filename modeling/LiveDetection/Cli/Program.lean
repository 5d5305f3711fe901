import LiveDetection.Cli.Arguments
import LiveDetection.Cli.EnvironmentFile
import LiveDetection.Cli.LogFilter
import LiveDetection.Launch.Machine
import LiveDetection.Number.Radix

/-!
# The program

The program takes over the variables of an environment file, understands its arguments and
the log filter, and launches the job. An error that ends the job is logged, and its exit
code is that of the process.
-/

namespace LiveDetection.Cli

/-- How the process ends. -/
structure Verdict where
  /-- The exit code; there is none while the job still waits for its stream. -/
  exitCode : Option ExitCode
  /-- The error that ended the job, if the job got so far and did not end cleanly. -/
  error : Option RunError := none
  /-- Whether the error is logged. -/
  logged : Bool := false
deriving DecidableEq

/-- The name of the program in its log. -/
def logTarget : String := "stream_executor"

/-- Whether a control character could steer a terminal. -/
def steersTerminal (c : Char) : Bool :=
  ['\x07', '\x08', '\x0c', '\x1b', '\x7f'].contains c || (0x80 ≤ c.toNat && c.toNat ≤ 0x9F)

/-- A control character as it is spelled in the log, by its hexadecimal number. -/
def spellControl (c : Char) : List Char :=
  let digits := [digitFor (c.toNat / 16), digitFor (c.toNat % 16)]
  if c.toNat < 0x80 then '\\' :: 'x' :: digits else '\\' :: 'u' :: '\x7b' :: digits ++ ['\x7d']

/-- A text as it stands in the log. -/
def logText (text : String) : String :=
  .ofList (text.toList.flatMap fun c => if steersTerminal c then spellControl c else [c])

/-- What the log says about an error. -/
def errorLine (e : RunError) : String := logText (e.message ++ " (" ++ e.exitCode.text ++ ")")

/-- The line about the error of a verdict, if it is logged. -/
def Verdict.line (v : Verdict) : Option String :=
  if v.logged then v.error.map errorLine else none

/-- The verdict on a launch. -/
def Verdict.of (filter : LogFilter) : Ending Unit → Verdict
  | .value () => { exitCode := some .success }
  | .failed e =>
    { exitCode := some e.exitCode, error := some e, logged := filter.showsErrors logTarget }
  | .waiting => { exitCode := none }

/-- The name of environment files. -/
def environmentFile : String := ".env"

variable [Resolution] {ℓ : Type}

/-- The machine after an environment file was taken over. The file is looked for in the working
directory and in all that lie above it. -/
def takeEnvironmentFile (m : Machine ℓ) : Machine ℓ :=
  let files := m.outside.files
  match files.readUpwards environmentFile files.workingDirectory.reverse with
  | some content =>
    match String.fromUTF8? ⟨content.toArray⟩ with
    | some text => { m with environment := EnvironmentFile.apply text m.environment }
    | none => m
  | none => m

/-- The machine after a text was written to standard output. -/
def write (text : String) (m : Machine ℓ) : Machine ℓ :=
  { m with outside.output := m.outside.output ++ text.toUTF8.toList }

/-- The verdict on a process with wrong arguments. -/
def usageVerdict : Verdict := { exitCode := some .invalidCommandLineArguments }

/-- What a launch is asked to do for a job. -/
def RunOptions.launch (options : RunOptions) : LaunchOptions := ⟨options.jobConfig, options.dryRun⟩

/-- What the program finds, with the outside `ω`, sources `σ` and components `δ`. -/
structure Host (ω σ δ : Type) where
  /-- The outside after an environment file was taken over. -/
  takeEnvironmentFile : ω → ω
  /-- The log filter of the environment. -/
  logFilter : ω → String
  /-- The outside after a text was written to standard output. -/
  write : String → ω → ω
  /-- What a launch finds. -/
  site : ω → Site ω σ δ

namespace Host

variable {ω σ δ : Type} [VideoSource σ] [Detector δ] [Publisher ω]

/-- The log filter for a job, if its text is one. -/
def filter? (host : Host ω σ δ) (options : RunOptions) (w : ω) : Option LogFilter :=
  LogFilter.ofText? (options.logFilter.getD (host.logFilter w))

/-- Launch a job. -/
def launch (host : Host ω σ δ) (options : RunOptions) (w : ω) : Trace LaunchEvent ω Unit :=
  ((host.site w).launch options.launch).run w

/-- Run a job. -/
def runJob (host : Host ω σ δ) (options : RunOptions) (w : ω) : Verdict × ω :=
  match host.filter? options w with
  | none => (usageVerdict, w)
  | some filter =>
    let trace := host.launch options w
    (.of filter trace.ending, trace.world)

/-- Run the program with arguments. -/
def runProgram (host : Host ω σ δ) (arguments : List String) (w : ω) : Verdict × ω :=
  let w := host.takeEnvironmentFile w
  match Request.of arguments with
  | .help => ({ exitCode := some .success }, host.write helpText w)
  | .version => ({ exitCode := some .success }, host.write versionText w)
  | .invalid => (usageVerdict, w)
  | .run options => host.runJob options w

end Host

/-- What the program finds on a machine. -/
def machineHost : Host (Machine ℓ) (DecoderSource ℓ) MotionDetector where
  takeEnvironmentFile
  logFilter m := m.environment.logFilter
  write
  site m := Machine.site m.startMillis

/-- Run the program with arguments on a machine. -/
def runProgram [Launcher ℓ] (arguments : List String) (m : Machine ℓ) : Verdict × Machine ℓ :=
  machineHost.runProgram arguments m

end LiveDetection.Cli
