import LiveDetection.Clock
import LiveDetection.Run.Event

/-!
# Exponential backoff

The delay between attempts starts at one millisecond and doubles after every failure, up
to thirty seconds. With a deadline a sleep never reaches beyond it, and there is no sleep
once the deadline is reached.
-/

namespace LiveDetection

section

variable [Resolution]

/-- The delay before the first attempt. -/
def firstDelay : Nat := millis 1

/-- The longest delay. -/
def maximalDelay : Nat := millis 30000

theorem firstDelay_pos : 0 < firstDelay := millis_pos (by decide)

theorem firstDelay_le_maximalDelay : firstDelay ≤ maximalDelay := millis_le (by decide)

end

/-- The state of a retry loop between two attempts. -/
structure Backoff where
  /-- The delay before the next attempt. -/
  delay : Nat
  /-- When the loop gives up. -/
  deadline : Option Nat := none
  delay_pos : 0 < delay

namespace Backoff

/-- How long to sleep before the next attempt, or `none` once the deadline has passed. -/
def pause? (b : Backoff) (now : Nat) : Option Nat :=
  match b.deadline with
  | none => some b.delay
  | some deadline => if deadline - now = 0 then none else some (min (deadline - now) b.delay)

/-- A sleep is not empty and stays within the deadline. -/
theorem pause?_bounds {b : Backoff} {deadline now d : Nat} (hb : b.deadline = some deadline)
    (h : b.pause? now = some d) : 0 < d ∧ now + d ≤ deadline := by
  have hpos := b.delay_pos
  simp only [pause?, hb] at h
  split at h
  · cases h
  · injection h with h
    omega

variable [Resolution]

/-- A loop that never gives up. -/
def endless : Backoff := { delay := firstDelay, delay_pos := firstDelay_pos }

/-- A loop that gives up at a deadline. -/
def untilDeadline (deadline : Nat) : Backoff := { endless with deadline := some deadline }

/-- The state after a failed attempt. -/
def afterFailure (b : Backoff) : Backoff where
  delay := min (2 * b.delay) maximalDelay
  deadline := b.deadline
  delay_pos := by
    have h := b.delay_pos
    have hfirst := firstDelay_pos
    have hmax := firstDelay_le_maximalDelay
    omega

@[simp] theorem deadline_afterFailure (b : Backoff) : b.afterFailure.deadline = b.deadline := rfl

@[simp] theorem deadline_untilDeadline (deadline : Nat) :
    (untilDeadline deadline).deadline = some deadline := rfl

end Backoff

end LiveDetection
