import LiveDetection.Capture.Source

/-!
# A scripted video source

A source that answers from lists. When a list is used up, openings and reads succeed, so
every outage of a scripted source ends.
-/

namespace LiveDetection.Rehearsal

/-- The answers that a source has yet to give. -/
structure CuedSource where
  /-- Whether the openings to come succeed. -/
  opens : List Bool := []
  /-- Whether the reads to come succeed. -/
  reads : List Bool := []
  /-- The frames of successful reads, over and over. -/
  frames : List Frame := []
  /-- How many reads were successful. -/
  served : Nat := 0
  /-- How long the calls to come take; further calls take no time. -/
  durations : List Nat := []
deriving DecidableEq, Repr

namespace CuedSource

/-- The frame of successful read number `k`. Without frames to repeat it is small and filled
with the number of the read. -/
def frameAt (s : CuedSource) (k : Nat) : Frame :=
  s.frames[k % s.frames.length]?.getD
    ⟨List.replicate 12 (UInt8.ofNat (k + 1)), 2, 2⟩

/-- The source after a call has taken its time. -/
def tick (s : CuedSource) : CuedSource := { s with durations := s.durations.tail }

instance : VideoSource CuedSource where
  openAt _ _ s :=
    ⟨s.opens.headD true, s.durations.headD 0, { s.tick with opens := s.opens.tail }⟩
  nextPicture _ s :=
    let rest := { s.tick with reads := s.reads.tail }
    if s.reads.headD true then
      ⟨some (s.frameAt s.served), s.durations.headD 0, { rest with served := s.served + 1 }⟩
    else
      ⟨none, s.durations.headD 0, rest⟩
  close _ s := ⟨(), s.durations.headD 0, s.tick⟩
  patience s := s.opens.length + s.reads.length + 1

end CuedSource

end LiveDetection.Rehearsal
