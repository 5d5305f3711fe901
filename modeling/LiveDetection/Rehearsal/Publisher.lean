import LiveDetection.Publish.Basic

/-!
# A recording publisher

A publisher that keeps what it is given, and that fails for good once it holds a set number
of messages.
-/

namespace LiveDetection.Rehearsal

/-- A publisher that keeps its messages. -/
structure Recorder where
  /-- The messages so far, latest first. -/
  kept : List (String × Message) := []
  /-- From how many messages on publishing fails. -/
  capacity : Option Nat := none

instance : Publisher Recorder where
  publish queue message r :=
    if r.capacity.any (· ≤ r.kept.length) then (.error (.transport "broker unavailable"), r)
    else (.ok (), { r with kept := (queue, message) :: r.kept })

end LiveDetection.Rehearsal
