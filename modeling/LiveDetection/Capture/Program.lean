/-!
# Decoder programs

A decoder program is started with an address and a frame size, and writes raw pictures to
its output until it exits. Its output is a list of bursts.
-/

namespace LiveDetection

/-- Bytes that a program writes at once, after a pause. -/
structure Burst where
  pause : Nat := 0
  data : List UInt8 := []
deriving DecidableEq, Repr

/-- The programs of a system, with state `ℓ`. -/
class Launcher (ℓ : Type) where
  /-- Start a program with arguments. Without an answer there is no such program. -/
  launch : (program : String) → (arguments : List String) → ℓ → Option (List Burst) × ℓ

/-- What makes a decoder write raw pictures of a size to its output. -/
def decoderArguments (uri : String) (width height : Int32) : List String :=
  ["-hide_banner", "-loglevel", "error", "-i", uri, "-an", "-vf",
    "scale=" ++ toString width.toInt ++ ":" ++ toString height.toInt, "-pix_fmt", "bgr24", "-f",
    "rawvideo", "-"]

/-- A block of bytes and the time at which its last byte arrived. -/
structure Block where
  arrival : Nat
  data : List UInt8
deriving DecidableEq, Repr

/-- What a decoder delivers: whole blocks, and the time of its end. -/
structure Feed where
  blocks : List Block
  endTime : Nat
deriving DecidableEq, Repr

namespace Feed

/-- The whole blocks of `size + 1` bytes at the front of some bytes, and the bytes left over. -/
def cut (size : Nat) (bytes : List UInt8) : List (List UInt8) × List UInt8 :=
  if bytes.length ≤ size then ([], bytes)
  else
    let rest := cut size (bytes.drop (size + 1))
    (bytes.take (size + 1) :: rest.1, rest.2)
termination_by bytes.length
decreasing_by simp only [List.length_drop]; omega

/-- The feed of a program that has written `pending` bytes of a block by now. What is left over
at its end is dropped. -/
def ofBursts (size now : Nat) (pending : List UInt8) : List Burst → Feed
  | [] => ⟨[], now⟩
  | burst :: rest =>
    let time := now + burst.pause
    let blocks := cut size (pending ++ burst.data)
    let later := ofBursts size time blocks.2 rest
    ⟨blocks.1.map (⟨time, ·⟩) ++ later.blocks, later.endTime⟩

end Feed

end LiveDetection
