/-!
# The quit signal

The control channel and the run share a flag and an error message. The message is stored
before the flag is raised, and a poll looks at the flag before the message, so a poll
never sees the flag of a failure without its message.
-/

namespace LiveDetection

/-- What a poll of the control channel tells the run. -/
inductive ControlStatus where
  | proceed
  | quit
  | fatal (reason : String)
deriving DecidableEq, Repr, Inhabited

/-- The shared flag and error message. -/
structure QuitSignal where
  raised : Bool := false
  error : Option String := none
deriving DecidableEq, Repr, Inhabited

namespace QuitSignal

/-- Store an error message. The first message stays. -/
def storeError (s : QuitSignal) (reason : String) : QuitSignal :=
  { s with error := s.error.or (some reason) }

/-- Raise the flag. -/
def raise (s : QuitSignal) : QuitSignal := { s with raised := true }

/-- Ask for a clean end. -/
def askToQuit (s : QuitSignal) : QuitSignal := s.raise

/-- Report that the control channel failed. -/
def fail (s : QuitSignal) (reason : String) : QuitSignal := (s.storeError reason).raise

/-- What a poll sees. An empty message counts as none. -/
def status (s : QuitSignal) : ControlStatus :=
  if s.raised then
    match s.error with
    | some reason => if reason = "" then .quit else .fatal reason
    | none => .quit
  else .proceed

@[simp] theorem status_askToQuit (s : QuitSignal) (h : s.error = none) :
    s.askToQuit.status = .quit := by
  simp [askToQuit, raise, status, h]

/-- The first failure with a message is what polls see. -/
theorem status_fail (s : QuitSignal) (h : s.error = none) {reason : String} (hr : reason ≠ "") :
    (s.fail reason).status = .fatal reason := by
  simp [fail, storeError, raise, status, h, hr]

end QuitSignal

end LiveDetection
