import LiveDetection.Publish.Device

/-!
# A sink with limits

A sink that takes a set number of bytes in all, and of which one flush fails.
-/

namespace LiveDetection.Rehearsal

/-- A sink with limits. -/
structure LimitedSink where
  /-- How many bytes there is room for; without a limit, for all. -/
  room : Option Nat := none
  /-- The number of the flush that fails, counted from one; zero for none. -/
  failingFlush : Nat := 0
  /-- What was taken. -/
  taken : List UInt8 := []
  /-- How many flushes there were. -/
  flushes : Nat := 0
deriving DecidableEq, Repr

instance : Device LimitedSink where
  accept bytes s :=
    let free := (s.room.getD (s.taken.length + bytes.length)) - s.taken.length
    let kept := { s with taken := s.taken ++ bytes.take free }
    (if free = 0 then .error "closed" else .ok (min free bytes.length), kept)
  flush s :=
    let counted := { s with flushes := s.flushes + 1 }
    (if counted.flushes = s.failingFlush then .error "flush failed" else .ok (), counted)

end LiveDetection.Rehearsal
