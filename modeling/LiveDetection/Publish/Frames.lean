import LiveDetection.Message.Envelope
import LiveDetection.Publish.Basic

/-!
# Messages on a connection

On a connection messages travel in framed envelopes, one behind the other. The length in
front of each says where the next one starts.
-/

namespace LiveDetection

/-- A publisher that writes framed envelopes. -/
structure FrameWriter where
  written : List UInt8 := []
deriving DecidableEq, Repr

/-- The failure to frame an envelope. -/
def envelopeError : RunError := .transport "failed to encode envelope: the archive is too large"

instance : Publisher FrameWriter where
  publish queue message w :=
    match Envelope.frame? ⟨queue, message⟩ with
    | some frame => (.ok (), ⟨w.written ++ frame⟩)
    | none => (.error envelopeError, w)

namespace Envelope

/-- The envelopes that the bytes of a connection consist of, with nothing left over. -/
def ofConnection? (bytes : List UInt8) : Option (List Envelope) :=
  if bytes = [] then some []
  else
    let body := bytes.drop 4
    let length := lengthOf (bytes.take 4)
    if 4 ≤ bytes.length ∧ length ≤ body.length then do
      let first ← ofArchive? (body.take length)
      let others ← ofConnection? (body.drop length)
      return first :: others
    else none
termination_by bytes.length
decreasing_by simp only [List.length_drop]; omega

end Envelope

end LiveDetection
