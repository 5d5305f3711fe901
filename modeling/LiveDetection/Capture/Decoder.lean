import LiveDetection.Capture.Program
import LiveDetection.Capture.Source

/-!
# Sources behind a decoder program

To open an address the source starts a decoder and waits for the first picture, which it
keeps for the first read. Pictures are read in the order in which the decoder wrote them. A
read waits for a picture no longer than a time limit; a picture that comes too late is not
lost, it is there for a later read. Closing ends the decoder, and what it wrote is gone.
-/

namespace LiveDetection

/-- A source behind a decoder program, which is one of the programs of `ℓ`. -/
structure DecoderSource (ℓ : Type) where
  system : ℓ
  program : String
  width : Int32
  height : Int32
  /-- The longest wait for a picture. -/
  timeout : Nat
  /-- The picture that proved the stream to be live. -/
  pending : Option (List UInt8) := none
  /-- What the running decoder has yet to deliver. -/
  feed : Option Feed := none

namespace DecoderSource

variable {ℓ : Type}

/-- How many bytes a picture has: three for every pixel. -/
def pictureSize (s : DecoderSource ℓ) : Nat :=
  s.width.toNatClampNeg * s.height.toNatClampNeg * 3

/-- The next block of the decoder, if it arrives in time, how long the wait was, and the source
afterwards. -/
def nextBlock (now : Nat) (s : DecoderSource ℓ) : Reply (DecoderSource ℓ) (Option (List UInt8)) :=
  match s.feed with
  | none => ⟨none, 0, s⟩
  | some feed =>
    match feed.blocks with
    | [] => ⟨none, min s.timeout (feed.endTime - now), s⟩
    | block :: rest =>
      if block.arrival ≤ now + s.timeout then
        ⟨some block.data, block.arrival - now, { s with feed := some { feed with blocks := rest } }⟩
      else ⟨none, s.timeout, s⟩

/-- End the decoder and forget what it delivered. -/
def shut (s : DecoderSource ℓ) : DecoderSource ℓ := { s with pending := none, feed := none }

/-- Start a decoder and wait for its first picture. -/
def start [Launcher ℓ] (uri : String) (now : Nat) (s : DecoderSource ℓ) :
    Reply (DecoderSource ℓ) Bool :=
  match s.pictureSize with
  | 0 => ⟨false, 0, s⟩
  | size + 1 =>
    match Launcher.launch s.program (decoderArguments uri s.width s.height) s.system with
    | (none, system) => ⟨false, 0, { s with system := system }⟩
    | (some bursts, system) =>
      let started := { s with system := system, feed := some (.ofBursts size now [] bursts) }
      match started.nextBlock now with
      | ⟨some block, cost, running⟩ => ⟨true, cost, { running with pending := some block }⟩
      | ⟨none, cost, running⟩ => ⟨false, cost, running.shut⟩

/-- The picture made of a block. -/
def picture (s : DecoderSource ℓ) (block : List UInt8) : Frame := ⟨block, s.width, s.height⟩

/-- The next picture. -/
def next (now : Nat) (s : DecoderSource ℓ) : Reply (DecoderSource ℓ) (Option Frame) :=
  match s.pending with
  | some block => ⟨some (s.picture block), 0, { s with pending := none }⟩
  | none =>
    let reply := s.nextBlock now
    ⟨reply.value.map s.picture, reply.cost, reply.source⟩

/-- For how many attempts the reconnection to a live stream is followed. -/
def attemptLimit : Nat := 1000

instance [Launcher ℓ] : VideoSource (DecoderSource ℓ) where
  openAt uri now s := s.shut.start uri now
  nextPicture now s := s.next now
  close _ s := ⟨(), 0, s.shut⟩
  patience _ := attemptLimit

end DecoderSource

end LiveDetection
