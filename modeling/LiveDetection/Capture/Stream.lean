import LiveDetection.Capture.Source
import LiveDetection.Retry.Loop
import LiveDetection.Run.Event
import LiveDetection.Run.Session

/-!
# Live streams

A live stream is a source that was opened once. When a read fails, the stream reconnects:
every attempt closes the source, opens it at the same address and, if that worked, reads a
frame. Attempts are separated by an exponential backoff.
-/

namespace LiveDetection

/-- A source attached to an address, and the time. -/
structure LiveStream (σ : Type) where
  source : σ
  uri : String
  now : Nat

namespace LiveStream

variable {σ : Type} [VideoSource σ]

/-- The failure to open a stream for the first time. -/
def connectError (uri : String) : RunError :=
  .fatal .unableToConnectToStream ("Unable to connect to stream: " ++ uri)

/-- Open an address. Failing the first time is final. -/
def connect (source : σ) (uri : String) (now : Nat) :
    Except RunError Unit × List Event × LiveStream σ :=
  let reply := VideoSource.openAt uri now source
  (if reply.value then .ok () else .error (connectError uri),
    [.opened uri reply.value], ⟨reply.source, uri, now + reply.cost⟩)

theorem eq_connectError {source : σ} {uri : String} {now : Nat} {e : RunError}
    (h : (connect source uri now).1 = .error e) : e = connectError uri := by
  simp only [connect] at h
  split at h
  · cases h
  · cases h
    rfl

/-- Read once. -/
def read : Session Event (LiveStream σ) (Option Frame) :=
  .act fun s =>
    let reply := VideoSource.nextPicture s.now s.source
    (reply.value, [.read reply.value], { s with source := reply.source, now := s.now + reply.cost })

/-- Close, open and read again. -/
def reopen (uri : String) (now : Nat) (source : σ) : Retry.Attempt σ Frame :=
  let shut := VideoSource.close now source
  let opening := VideoSource.openAt uri (now + shut.cost) shut.source
  let openedAt := now + shut.cost + opening.cost
  if opening.value then
    let reply := VideoSource.nextPicture openedAt opening.source
    ⟨reply.value, [.closed, .opened uri true, .read reply.value],
      shut.cost + opening.cost + reply.cost, reply.source⟩
  else
    ⟨none, [.closed, .opened uri false], shut.cost + opening.cost, opening.source⟩

/-- Let go of the stream for good. -/
def disconnect : Session Event (LiveStream σ) Unit :=
  .act fun s =>
    let reply := VideoSource.close s.now s.source
    ((), [.closed], { s with source := reply.source, now := s.now + reply.cost })

variable [Resolution]

/-- Reconnect for at most a duration. -/
def reconnectFor (duration : Nat) : Session Event (LiveStream σ) (Option Frame) :=
  .act fun s =>
    let o := Retry.withinDuration (reopen s.uri) duration s.now s.source
    (o.result, o.events, { s with source := o.state, now := o.now })

/-- Reconnect for as long as it takes. -/
def reconnect : Session Event (LiveStream σ) Frame :=
  ⟨fun s =>
    let o := Retry.following (reopen s.uri) (VideoSource.patience s.source) .endless s.now s.source
    let ending := match o.result with
      | some frame => .value frame
      | none => .waiting
    ⟨ending, o.events, { s with source := o.state, now := o.now }⟩⟩

/-- Read, and reconnect for as long as it takes if that fails. -/
def readOrReconnect : Session Event (LiveStream σ) Frame := do
  match ← read with
  | some frame => pure frame
  | none => reconnect

end LiveStream

end LiveDetection
