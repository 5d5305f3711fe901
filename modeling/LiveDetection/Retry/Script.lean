import LiveDetection.Retry.Loop

/-!
# Scripted attempts

Attempts whose outcomes and costs are listed beforehand. They show what the retry loops do
for given outcomes, apart from any stream.
-/

namespace LiveDetection.Retry

/-- Outcomes and costs of the attempts to come. After the listed ones, attempts have the
outcome `last` and no cost. -/
structure Script where
  outcomes : List Bool
  costs : List Nat := []
  last : Bool := true
  /-- How many attempts were made. -/
  made : Nat := 0
deriving DecidableEq, Repr

namespace Script

/-- The next attempt. -/
def attempt (_now : Nat) (s : Script) : Attempt Script Unit where
  result := if s.outcomes.headD s.last then some () else none
  cost := s.costs.headD 0
  state := { s with outcomes := s.outcomes.tail, costs := s.costs.tail, made := s.made + 1 }

variable [Resolution]

/-- Retry for at most a duration, from time zero. -/
def runWithin (s : Script) (duration : Nat) : Outcome Script Unit :=
  withinDuration attempt duration 0 s

/-- Retry until success. After the listed outcomes one more attempt decides. -/
def runUnbounded (s : Script) : Outcome Script Unit :=
  following attempt (s.outcomes.length + 1) .endless 0 s

end Script

end LiveDetection.Retry
