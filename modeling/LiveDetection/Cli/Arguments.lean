/-!
# Command lines

What the arguments of the program ask for. They are taken one after the other, and the
first that asks for help or for the version, or that is wrong, decides.
-/

namespace LiveDetection.Cli

/-- What a job run is asked to do. -/
structure RunOptions where
  /-- The path of the job configuration. -/
  jobConfig : String
  /-- Which log lines are wanted, whatever the environment says. -/
  logFilter : Option String := none
  /-- Print messages instead of sending them. -/
  dryRun : Bool := false
deriving DecidableEq, Repr

/-- What the program is asked to do. -/
inductive Request where
  | run (options : RunOptions)
  | help
  | version
  | invalid
deriving DecidableEq, Repr

/-- What is known after some of the arguments. -/
structure Draft where
  jobConfig : Option String := none
  logFilter : Option String := none
  dryRun : Bool := false
deriving DecidableEq, Repr

namespace Draft

/-- The request when all arguments have been taken. A path is required. -/
def finish (d : Draft) : Request :=
  match d.jobConfig with
  | some path => .run ⟨path, d.logFilter, d.dryRun⟩
  | none => .invalid

/-- Take a path. There is one only, and it is not empty. -/
def path? (d : Draft) (text : String) : Option Draft :=
  if text = "" ∨ d.jobConfig.isSome then none else some { d with jobConfig := some text }

/-- Take a log filter. There is one only. -/
def logFilter? (d : Draft) (text : String) : Option Draft :=
  if d.logFilter.isSome then none else some { d with logFilter := some text }

/-- Take the wish for a dry run. It is made once only. -/
def dryRun? (d : Draft) : Option Draft :=
  if d.dryRun then none else some { d with dryRun := true }

end Draft

/-- Take arguments that are all paths. -/
def takePaths (d : Draft) : List String → Request
  | [] => d.finish
  | text :: rest =>
    match d.path? text with
    | some d => takePaths d rest
    | none => .invalid

/-- What an argument is by its form. -/
inductive ArgumentForm where
  /-- Everything behind it is a path. -/
  | endOfOptions
  /-- An option with a long name, and the value that is attached to it. -/
  | long (name : String) (value : Option String)
  /-- Options of one letter. -/
  | letters (first : Char)
  | plain
deriving DecidableEq, Repr

/-- The form of an argument. -/
def ArgumentForm.of (text : String) : ArgumentForm :=
  match text.toList with
  | ['-', '-'] => endOfOptions
  | '-' :: '-' :: rest =>
    long (String.ofList (rest.takeWhile (· ≠ '=')))
      (if rest.contains '=' then some (String.ofList ((rest.dropWhile (· ≠ '=')).drop 1)) else none)
  | '-' :: first :: _ => letters first
  | _ => plain

/-- Go on with what an argument made known. -/
def goOn (next : Draft → Request) : Option Draft → Request
  | some d => next d
  | none => .invalid

/-- Take arguments one after the other. -/
def takeArguments (d : Draft) : List String → Request
  | [] => d.finish
  | text :: rest =>
    match ArgumentForm.of text, rest with
    | .endOfOptions, rest => takePaths d rest
    | .plain, rest => goOn (takeArguments · rest) (d.path? text)
    | .letters 'h', _ => .help
    | .letters 'V', _ => .version
    | .long "help" none, _ => .help
    | .long "version" none, _ => .version
    | .long "dry-run" none, rest => goOn (takeArguments · rest) d.dryRun?
    | .long "log-level" (some value), rest => goOn (takeArguments · rest) (d.logFilter? value)
    | .long "log-level" none, value :: rest =>
      if ArgumentForm.of value = .plain then goOn (takeArguments · rest) (d.logFilter? value)
      else .invalid
    | _, _ => .invalid

/-- What the arguments ask for. -/
def Request.of (arguments : List String) : Request := takeArguments {} arguments

/-- The name and version of the program. -/
def versionText : String := "stream-executor 2.0.1\n"

/-- How the program is used. -/
def helpText : String :=
  "Run a detection component against a live video stream\n" ++
  "\n" ++
  "Usage: stream-executor [OPTIONS] <JOB_CONFIG>\n" ++
  "\n" ++
  "Arguments:\n" ++
  "  <JOB_CONFIG>  Path to the job's TOML launch configuration\n" ++
  "\n" ++
  "Options:\n" ++
  "      --log-level <LOG_LEVEL>  Log filter (e.g. debug, stream_executor=trace). Overrides " ++
  "STREAM_EXECUTOR_LOG and RUST_LOG\n" ++
  "      --dry-run                Print messages as JSON lines on stdout instead of using the " ++
  "configured transport\n" ++
  "  -h, --help                   Print help\n" ++
  "  -V, --version                Print version\n"

end LiveDetection.Cli
