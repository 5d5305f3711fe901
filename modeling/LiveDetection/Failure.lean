import LiveDetection.ExitCode

/-!
# Failures

The causes for which a job or a detection call fails, each with one wording. A cause that
ends the job also fixes the exit code of the process.
-/

namespace LiveDetection

/-- Why the text of a job configuration could not be read. -/
inductive ConfigTextError where
  /-- A required field does not occur. -/
  | missingField (name : String)
  /-- The text is not a document of the expected shape. -/
  | malformed
deriving DecidableEq, Repr

/-- The wording of a configuration text error. -/
def ConfigTextError.message : ConfigTextError → String
  | missingField name => "missing field `" ++ name ++ "`"
  | malformed => "malformed document"

/-- Why a job ends early. -/
inductive RunError where
  /-- A condition with an exit code of its own. -/
  | fatal (code : ExitCode) (reason : String)
  | componentLoad (reason : String)
  | config (reason : String)
  | transport (reason : String)
  | io (reason : String)
  | configText (cause : ConfigTextError)
  | serialization
deriving DecidableEq, Repr

namespace RunError

/-- The wording of the error. -/
def message : RunError → String
  | fatal _ reason => reason
  | componentLoad reason => "failed to load detection component: " ++ reason
  | config reason => "invalid job configuration: " ++ reason
  | transport reason => "message transport error: " ++ reason
  | io reason => "io error: " ++ reason
  | configText cause => "failed to parse job configuration: " ++ cause.message
  | serialization => "serialization error"

/-- The exit code with which the process reports the error. -/
def exitCode : RunError → ExitCode
  | fatal code _ => code
  | componentLoad _ => .componentLoadError
  | config _ => .invalidJobConfig
  | configText _ => .invalidJobConfig
  | transport _ => .messageTransportError
  | io _ => .unexpectedError
  | serialization => .unexpectedError

end RunError

/-- Why a detection component could not answer a request. -/
inductive DetectionError where
  | unsupportedDataType
  | couldNotReadDataFile
  | detectionFailed (reason : String)
  | invalidProperty (reason : String)
  | other (reason : String)
deriving DecidableEq, Repr

/-- The wording of a detection error. -/
def DetectionError.message : DetectionError → String
  | unsupportedDataType => "the component does not support this data type"
  | couldNotReadDataFile => "the component could not read the data file"
  | detectionFailed reason => "detection failed: " ++ reason
  | invalidProperty reason => "invalid job property: " ++ reason
  | other reason => reason

/-- A sequence of steps that may fail has a value if each of them has one. -/
theorem bind_eq_ok {ε α β : Type} {x : Except ε α} {f : α → Except ε β} {b : β} :
    (x >>= f) = .ok b ↔ ∃ a, x = .ok a ∧ f a = .ok b := by
  cases x <;> simp [bind, Except.bind]

end LiveDetection
