import LiveDetection.Frame

/-!
# Video sources

A video source is opened at an address, read frame by frame, and closed. Every call takes
some time. What a source answers depends on its state and on the time of the call only.
-/

namespace LiveDetection

/-- The answer of a source, how long it took, and the source after the call. -/
structure Reply (σ α : Type) where
  value : α
  cost : Nat := 0
  source : σ

/-- A video source with state `σ`. -/
class VideoSource (σ : Type) where
  /-- Open the source at an address; `false` when it cannot be reached. -/
  openAt : String → Nat → σ → Reply σ Bool
  /-- The next frame, or `none` on any failure. -/
  nextPicture : Nat → σ → Reply σ (Option Frame)
  /-- Let go of the address. -/
  close : Nat → σ → Reply σ Unit
  /-- For how many attempts an endless reconnection is followed. -/
  patience : σ → Nat

end LiveDetection
