import LiveDetection.Retry.Backoff

/-!
# Retry loops

A retry loop sleeps before every attempt and ends with the first attempt that yields a
value. The bounded loop also ends at its deadline. The unbounded loop is followed for a
given number of attempts; it has no value when none of them succeeds.
-/

namespace LiveDetection.Retry

variable [Resolution] {σ α : Type}

/-- What one attempt yields, what it did, how long it took and the state that it leaves. -/
structure Attempt (σ α : Type) where
  result : Option α
  events : List Event := []
  cost : Nat := 0
  state : σ

/-- What a whole loop yields, what it did, and the time and the state at its end. -/
structure Outcome (σ α : Type) where
  result : Option α
  events : List Event
  now : Nat
  state : σ

/-- Put what happened before a loop in front of its outcome. -/
def Outcome.after (events : List Event) (o : Outcome σ α) : Outcome σ α :=
  { o with events := events ++ o.events }

/-- Attempt until a value is there or the deadline is reached. The attempt is given the time
at which it starts. -/
def within (attempt : Nat → σ → Attempt σ α) (deadline : Nat) (b : Backoff)
    (hb : b.deadline = some deadline) (now : Nat) (state : σ) : Outcome σ α :=
  match h : b.pause? now with
  | none => ⟨none, [], now, state⟩
  | some d =>
    let a := attempt (now + d) state
    let later := now + d + a.cost
    match a.result with
    | some value => ⟨some value, .slept d :: a.events, later, a.state⟩
    | none =>
      (within attempt deadline b.afterFailure (by simpa using hb) later a.state).after
        (.slept d :: a.events)
termination_by deadline - now
decreasing_by
  have hd := Backoff.pause?_bounds hb h
  omega

/-- Attempt for at most `duration` from `now` on. -/
def withinDuration (attempt : Nat → σ → Attempt σ α) (duration now : Nat) (state : σ) :
    Outcome σ α :=
  within attempt (now + duration) (.untilDeadline (now + duration)) rfl now state

/-- Attempt until a value is there, for as many attempts as are followed. -/
def following (attempt : Nat → σ → Attempt σ α) :
    Nat → Backoff → Nat → σ → Outcome σ α
  | 0, _, now, state => ⟨none, [], now, state⟩
  | n + 1, b, now, state =>
    let a := attempt (now + b.delay) state
    let later := now + b.delay + a.cost
    match a.result with
    | some value => ⟨some value, .slept b.delay :: a.events, later, a.state⟩
    | none =>
      (following attempt n b.afterFailure later a.state).after (.slept b.delay :: a.events)

end LiveDetection.Retry
