import LiveDetection.Files.Tree
import LiveDetection.Publish.Frames
import LiveDetection.Publish.Lines

/-!
# Outlets

Where messages go is said by an address: lines on standard output, lines at the end of a
file, or framed envelopes on a connection. Opening a file makes the directories above it.
-/

namespace LiveDetection

/-- The address of an outlet. -/
inductive OutletAddress where
  | standardOutput
  | file (path : String)
  | unixSocket (path : String)
  | tcpSocket (address : String)
deriving DecidableEq, Repr

/-- What follows a scheme at the front of an address. -/
def afterScheme? (scheme uri : String) : Option String :=
  if scheme.toList.isPrefixOf uri.toList then
    some (String.ofList (uri.toList.drop scheme.length))
  else none

/-- The address that a text spells. -/
def OutletAddress.ofText? (uri : String) : Option OutletAddress :=
  if uri = "stdout" then some .standardOutput
  else
    ((afterScheme? "file://" uri).map file).or
      (((afterScheme? "unix://" uri).map unixSocket).or
        ((afterScheme? "tcp://" uri).map tcpSocket))

/-- An open outlet. -/
inductive Outlet where
  | standardOutput
  | file (place : Place)
  | connection (peer : String)
deriving DecidableEq, Repr

/-- The outside of a publisher: files, standard output, the peers that accept connections, and
the outlet that is open. -/
structure Outside where
  files : FileTree := {}
  /-- What was written to standard output. -/
  output : List UInt8 := []
  /-- The peers that accept connections. -/
  peers : List String := []
  /-- What was sent to peers. -/
  sent : FrameWriter := {}
  outlet : Outlet := .standardOutput

namespace Outside

/-- The failure to open a file. -/
def openError (path : String) (e : FileError) : RunError :=
  .transport ("cannot open " ++ path ++ ": " ++ e.message)

/-- The failure to reach a peer. -/
def connectError (peer reason : String) : RunError :=
  .transport ("unable to connect to " ++ peer ++ ": " ++ reason)

/-- Make the directories above a path, if it names any. -/
def makeParents (files : FileTree) (p : Path) : Except FileError Unit × FileTree :=
  match p.parent? with
  | some above => files.makeDirectories above
  | none => (.ok (), files)

/-- Open a file for lines at its end. -/
def openFile (path : String) (w : Outside) : Except RunError Unit × Outside :=
  let p := Path.ofText path
  match makeParents w.files p with
  | (.error e, files) => (.error (.io e.message), { w with files := files })
  | (.ok (), files) =>
    match files.openAppend p with
    | .error e => (.error (openError path e), { w with files := files })
    | .ok (place, files) => (.ok (), { w with files := files, outlet := .file place })

/-- Connect to a peer. -/
def connect (peer reason : String) (w : Outside) : Except RunError Unit × Outside :=
  if w.peers.contains peer then (.ok (), { w with outlet := .connection peer })
  else (.error (connectError peer reason), w)

/-- Open the outlet of an address. -/
def openAddress (address : OutletAddress) (w : Outside) : Except RunError Unit × Outside :=
  match address with
  | .standardOutput => (.ok (), { w with outlet := .standardOutput })
  | .file path => w.openFile path
  | .unixSocket path => w.connect path FileError.notFound.message
  | .tcpSocket peer => w.connect peer "Connection refused (os error 111)"

/-- Open the outlet that a text names. -/
def openOutlet (uri : String) (w : Outside) : Except RunError Unit × Outside :=
  match OutletAddress.ofText? uri with
  | some address => w.openAddress address
  | none => (.error (.config ("unsupported transport uri: " ++ uri)), w)

theorem exitCode_of_openFile {path : String} {w : Outside} {e : RunError}
    (h : (w.openFile path).1 = .error e) :
    e.exitCode ∈ [ExitCode.messageTransportError, .unexpectedError] := by
  simp only [openFile] at h
  split at h
  · cases h
    simp [RunError.exitCode]
  · split at h
    · cases h
      simp [RunError.exitCode, openError]
    · cases h

theorem exitCode_of_connect {peer reason : String} {w : Outside} {e : RunError}
    (h : (w.connect peer reason).1 = .error e) : e.exitCode = .messageTransportError := by
  rw [connect] at h
  split at h
  · cases h
  · cases h
    rfl

theorem exitCode_of_openOutlet {uri : String} {w : Outside} {e : RunError}
    (h : (w.openOutlet uri).1 = .error e) :
    e.exitCode ∈ [ExitCode.invalidJobConfig, .messageTransportError, .unexpectedError] := by
  rw [openOutlet] at h
  split at h
  · next address _ =>
    cases address with
    | standardOutput => cases h
    | file path => exact List.mem_cons_of_mem _ (exitCode_of_openFile h)
    | unixSocket path | tcpSocket peer => simp [exitCode_of_connect h]
  · cases h
    simp [RunError.exitCode]

/-- Hand a message to the open outlet. -/
def deliver (queue : String) (message : Message) (w : Outside) : Except RunError Unit × Outside :=
  match w.outlet with
  | .standardOutput => (.ok (), { w with output := w.output ++ lineBytes queue message })
  | .file place => (.ok (), { w with files := w.files.append place (lineBytes queue message) })
  | .connection _ =>
    let answer := Publisher.publish queue message w.sent
    (answer.1, { w with sent := answer.2 })

instance : Publisher Outside where
  publish := deliver

/-- Open an outlet and hand it messages. -/
def send (uri : String) (messages : List (String × Message)) (w : Outside) :
    Except RunError Unit × Outside :=
  match w.openOutlet uri with
  | (.ok (), w) => publishAll messages w
  | failed => failed

end Outside

end LiveDetection
