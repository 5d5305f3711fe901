import LiveDetection.Control.Signal
import LiveDetection.Failure

/-!
# Watching the control channel

The control channel carries lines. The line `quit` asks for a clean end, every other line
is ignored, and a channel that ends or breaks before `quit` is a failure. A line ends
with a newline, before which one carriage return is dropped; what stands before the end
of the channel without a newline is a line too.
-/

namespace LiveDetection

/-- The outcome of one read of the control channel before its end. -/
inductive ChannelRead where
  /-- Bytes that arrived, one at least. A read that brings none tells the end of the channel; it is
  not listed, since the channel is at its end behind the listed reads. -/
  | bytes (data : List UInt8)
  /-- The read was interrupted and is repeated. -/
  | interrupted
  /-- The read failed. -/
  | failed (reason : String)
deriving DecidableEq, Repr

namespace Control

/-- The command for a clean end. -/
def quitLine : List UInt8 := "quit".toUTF8.toList

/-- The failure of a channel that ends too early. -/
def closedTooEarly : String := "Standard in was closed before quit was received."

/-- The failure of a channel that breaks. -/
def readErrorMessage (reason : String) : String :=
  "An error occurred while trying to read from standard in: " ++ reason

/-- The byte that ends a line. -/
def newline : UInt8 := 10

/-- The byte that may stand before the end of a line. -/
def carriageReturn : UInt8 := 13

/-- The text without a last byte, if that byte is there. -/
def dropLast? (b : UInt8) (text : List UInt8) : List UInt8 :=
  if text.getLast? = some b then text.dropLast else text

/-- A line without its newline and without one carriage return before it. -/
def withoutLineEnd (line : List UInt8) : List UInt8 :=
  dropLast? carriageReturn (dropLast? newline line)

/-- Whether a line is the quit command. -/
def isQuit (line : List UInt8) : Bool := withoutLineEnd line = quitLine

end Control

/-- The channel as the watcher finds it: bytes that arrived and were not used yet, and the reads
to come. After the last of these the channel is at its end, and a further read brings nothing. -/
structure Channel where
  buffered : List UInt8 := []
  reads : List ChannelRead
deriving DecidableEq, Repr

/-- The bytes that a read brings. -/
def ChannelRead.data : ChannelRead → List UInt8
  | bytes data => data
  | _ => []

/-- How many bytes the channel has at most left to give. -/
def Channel.size (c : Channel) : Nat := (c.buffered ++ c.reads.flatMap ChannelRead.data).length

namespace Control

/-- Collect a line behind the bytes that it has so far: up to a newline, which belongs to it, or
up to the end of the channel. An interrupted read is repeated, and nothing collected is lost. -/
def readLine (line buffered : List UInt8) (reads : List ChannelRead) :
    Except String (List UInt8 × Channel) :=
  match buffered.dropWhile (· ≠ newline), reads with
  | b :: rest, reads => .ok (line ++ buffered.takeWhile (· ≠ newline) ++ [b], ⟨rest, reads⟩)
  | [], [] => .ok (line ++ buffered, ⟨[], []⟩)
  | [], .interrupted :: reads => readLine (line ++ buffered) [] reads
  | [], .failed reason :: _ => .error reason
  | [], .bytes data :: reads => readLine (line ++ buffered) data reads

/-- The bytes of a line are taken from the channel. -/
theorem size_readLine {line buffered line' : List UInt8} {reads : List ChannelRead}
    {rest : Channel} (h : readLine line buffered reads = .ok (line', rest)) :
    line'.length + rest.size = line.length + (Channel.mk buffered reads).size := by
  fun_induction readLine line buffered reads with
  | case1 line buffered reads b tail hdrop =>
    cases h
    have hsplit := congrArg List.length (List.takeWhile_append_dropWhile
      (p := (· ≠ newline)) (l := buffered))
    rw [hdrop] at hsplit
    simp only [List.length_append, List.length_cons] at hsplit
    simp only [Channel.size, List.length_append, List.length_singleton]
    omega
  | case2 line buffered =>
    cases h
    simp [Channel.size]
  | case3 line buffered reads _ ih =>
    simpa [Channel.size, ChannelRead.data, Nat.add_assoc] using ih h
  | case4 => cases h
  | case5 line buffered data reads _ ih =>
    simpa [Channel.size, ChannelRead.data, Nat.add_assoc] using ih h

/-- A line with bytes leaves the channel fewer. -/
theorem size_lt_of_readLine {c rest : Channel} {line : List UInt8}
    (h : readLine [] c.buffered c.reads = .ok (line, rest)) (hline : line ≠ []) :
    rest.size < c.size := by
  have hsize : line.length + rest.size = 0 + c.size := size_readLine h
  have hpos : 0 < line.length := List.length_pos_iff.mpr hline
  omega

/-- Watch the channel line by line. A line without bytes is the end of the channel. -/
def watchFrom (c : Channel) (signal : QuitSignal) : QuitSignal :=
  match h : readLine [] c.buffered c.reads with
  | .error reason => signal.fail (readErrorMessage reason)
  | .ok (line, rest) =>
    if hline : line = [] then signal.fail closedTooEarly
    else if isQuit line then signal.askToQuit
    else
      have := size_lt_of_readLine h hline
      watchFrom rest signal
termination_by c.size

/-- Watch the channel until it has said all that matters. -/
def watch (reads : List ChannelRead) : QuitSignal := watchFrom { reads := reads } {}

end Control

/-- Whether it is time to quit; a failed control channel is an error. -/
def ControlStatus.endsRun : ControlStatus → Except RunError Bool
  | proceed => .ok false
  | quit => .ok true
  | fatal reason => .error (.fatal .unableToReadFromStandardIn reason)

end LiveDetection
