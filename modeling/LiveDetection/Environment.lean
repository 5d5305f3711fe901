import LiveDetection.Files.Path
import LiveDetection.Text.Blank
import LiveDetection.Track.Basic

/-!
# The process environment

Variables from which the program takes its defaults. A variable that is blank counts as
unset.
-/

namespace LiveDetection

/-- The variables of the process, and the home directory of its account. -/
structure Environment where
  bindings : OrderedMap String String := .empty
  accountHome : Option String := none
deriving DecidableEq

namespace Environment

/-- The log filter. -/
def logVariable : String := "STREAM_EXECUTOR_LOG"

/-- The log filter when the one above is not set. -/
def fallbackLogVariable : String := "RUST_LOG"

/-- The run directory of components. -/
def runDirectoryVariable : String := "STREAM_EXECUTOR_RUN_DIR"

/-- The decoder program. -/
def decoderVariable : String := "STREAM_EXECUTOR_FFMPEG"

/-- The value of a variable. -/
def get? (e : Environment) (name : String) : Option String := e.bindings.get? name

/-- The environment with a variable. -/
def set (e : Environment) (name value : String) : Environment :=
  { e with bindings := e.bindings.insert name value }

/-- The environment with many variables. -/
def setAll (e : Environment) (entries : Properties) : Environment :=
  entries.entries.foldl (fun e entry => e.set entry.1 entry.2) e

/-- The value of a variable that is not blank. -/
def setting? (e : Environment) (name : String) : Option String :=
  (e.get? name).filter fun value => !isBlank value

/-- Which log lines are wanted. -/
def logFilter (e : Environment) : String :=
  ((e.setting? logVariable).or (e.setting? fallbackLogVariable)).getD "info"

/-- The name of the decoder program. -/
def decoder (e : Environment) : String := (e.setting? decoderVariable).getD "ffmpeg"

/-- The home directory. -/
def home? (e : Environment) : Option String := ((e.get? "HOME").filter (· ≠ "")).or e.accountHome

/-- The directory for data of programs. -/
def dataDirectory (e : Environment) : String :=
  match (e.get? "XDG_DATA_HOME").filter Path.isAbsoluteText with
  | some dir => dir
  | none =>
    match e.home? with
    | some home => Path.join home ".local/share"
    | none => "~/.local/share"

/-- The run directory of components when the job names none. -/
def runDirectory (e : Environment) : String :=
  (e.setting? runDirectoryVariable).getD (Path.join e.dataDirectory "stream-executor")

end Environment

end LiveDetection
