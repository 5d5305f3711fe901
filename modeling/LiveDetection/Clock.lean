/-!
# Time

Points in time and durations are natural numbers of ticks. The resolution says how fine that is:
how many ticks there are in a millisecond, the unit of all settings. What is shown of runs holds
for every resolution, so for the nanoseconds of a system clock as for the microseconds that
rehearsals count.
-/

namespace LiveDetection

/-- How fine time is counted. -/
class Resolution where
  /-- The ticks of a millisecond. -/
  perMilli : Nat
  perMilli_pos : 0 < perMilli

namespace Resolution

/-- Time in microseconds, as in rehearsals; the resolution where nothing else is said. -/
instance (priority := low) micro : Resolution := ⟨1000, by decide⟩

/-- Time in nanoseconds, as a system counts it. -/
@[reducible] def nano : Resolution := ⟨1000000, by decide⟩

end Resolution

variable [Resolution]

/-- The ticks of some milliseconds. -/
def millis (n : Nat) : Nat := Resolution.perMilli * n

theorem millis_pos {n : Nat} (h : 0 < n) : 0 < millis n := Nat.mul_pos Resolution.perMilli_pos h

theorem millis_le {m n : Nat} (h : m ≤ n) : millis m ≤ millis n :=
  Nat.mul_le_mul_left Resolution.perMilli h

end LiveDetection
