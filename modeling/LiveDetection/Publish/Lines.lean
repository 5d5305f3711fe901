import LiveDetection.Message.Json
import LiveDetection.Publish.Basic

/-!
# Messages as lines

Where people read along, every message is one line with a JSON object that names the queue
and holds the message. A line is written out in full and then flushed.
-/

namespace LiveDetection

open Json

/-- What a line says. -/
def lineValue (queue : String) (message : Message) : Value :=
  record [("queue", Form.toJson queue), ("message", Form.toJson message)]

/-- A line with its newline. -/
def lineText (queue : String) (message : Message) : String :=
  print (lineValue queue message) ++ "\n"

/-- The bytes of a line. -/
def lineBytes (queue : String) (message : Message) : List UInt8 :=
  (lineText queue message).toUTF8.toList

/-- Something that takes bytes. Failures come with their reason. -/
class ByteSink (ω : Type) where
  /-- Take all bytes. What was taken before a failure stays taken. -/
  write : List UInt8 → ω → Except String Unit × ω
  /-- Hand on what was taken. -/
  flush : ω → Except String Unit × ω

/-- Take a text and behind it the end of its line. -/
def writeLine {ω : Type} [ByteSink ω] (text : String) (sink : ω) : Except String Unit × ω :=
  match ByteSink.write text.toUTF8.toList sink with
  | (.ok (), sink) => ByteSink.write "\n".toUTF8.toList sink
  | failed => failed

/-- A publisher that writes lines. -/
structure LineWriter (ω : Type) where
  sink : ω

instance {ω : Type} [ByteSink ω] : Publisher (LineWriter ω) where
  publish queue message w :=
    match writeLine (print (lineValue queue message)) w.sink with
    | (.error reason, sink) => (.error (.transport reason), ⟨sink⟩)
    | (.ok (), sink) =>
      match ByteSink.flush sink with
      | (.error reason, sink) => (.error (.transport reason), ⟨sink⟩)
      | (.ok (), sink) => (.ok (), ⟨sink⟩)

end LiveDetection
