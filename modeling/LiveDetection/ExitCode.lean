/-!
# Exit codes

Every way in which a job can end has one process exit code, one number and one
description. The numbers are distinct, so a supervisor can tell the endings apart.
-/

namespace LiveDetection

/-- The ways in which the process can end. -/
inductive ExitCode where
  | success
  | unexpectedError
  | invalidCommandLineArguments
  | invalidJobConfig
  | unableToReadFromStandardIn
  | unableToConnectToStream
  | componentLoadError
  | componentInitError
  | componentUnsupported
  | streamStalled
  | messageTransportError
deriving DecidableEq, Repr, Inhabited

namespace ExitCode

/-- The number handed to the operating system. -/
def number : ExitCode → Nat
  | success => 0
  | unexpectedError => 1
  | invalidCommandLineArguments => 2
  | invalidJobConfig => 3
  | unableToReadFromStandardIn => 4
  | unableToConnectToStream => 5
  | componentLoadError => 6
  | componentInitError => 7
  | componentUnsupported => 8
  | streamStalled => 9
  | messageTransportError => 10

/-- What the code says about the job. -/
def description : ExitCode → String
  | success => "Job stopped cleanly"
  | unexpectedError => "An unexpected error occurred"
  | invalidCommandLineArguments => "Invalid command line arguments"
  | invalidJobConfig => "The job configuration file is invalid"
  | unableToReadFromStandardIn => "Unable to read from standard in"
  | unableToConnectToStream => "Unable to connect to stream"
  | componentLoadError => "Unable to load the detection component"
  | componentInitError => "The detection component failed to initialize"
  | componentUnsupported => "The detection component does not support video"
  | streamStalled => "The stream stalled for longer than the stall timeout"
  | messageTransportError => "Unable to publish to the message transport"

/-- The code and its description on one line. -/
def text (code : ExitCode) : String :=
  "exit code " ++ toString code.number ++ ": " ++ code.description

end ExitCode

end LiveDetection
