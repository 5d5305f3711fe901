import LiveDetection.Retry.Loop

/-!
# The turns of a retry loop

However long a retry loop sleeps and whatever makes it end, each of its turns is a sleep and an
attempt, and a turn without a value is followed by the next one. What holds of every turn therefore
holds of both loops, by induction on `Turns`.
-/

namespace LiveDetection.Retry

variable {σ α : Type}

/-- Turns of a loop from a time and a state on. The loop ends before a turn, or an attempt brings
a value, or it brings none and more turns follow. -/
inductive Turns (attempt : Nat → σ → Attempt σ α) : Nat → σ → Outcome σ α → Prop
  | ended (now : Nat) (state : σ) : Turns attempt now state ⟨none, [], now, state⟩
  | found {now d : Nat} {state : σ} {value : α}
    (hvalue : (attempt (now + d) state).result = some value) :
    Turns attempt now state
      ⟨some value, .slept d :: (attempt (now + d) state).events,
        now + d + (attempt (now + d) state).cost, (attempt (now + d) state).state⟩
  | failed {now d : Nat} {state : σ} {o : Outcome σ α}
    (hnone : (attempt (now + d) state).result = none)
    (h : Turns attempt (now + d + (attempt (now + d) state).cost) (attempt (now + d) state).state
      o) :
    Turns attempt now state (o.after (.slept d :: (attempt (now + d) state).events))

variable [Resolution]

theorem turns_within (attempt : Nat → σ → Attempt σ α) {deadline : Nat} {b : Backoff}
    (hb : b.deadline = some deadline) (now : Nat) (state : σ) :
    Turns attempt now state (within attempt deadline b hb now state) := by
  fun_induction within attempt deadline b hb now state with
  | case1 b hb now state => exact .ended now state
  | case2 b hb now state d hd a later value hvalue => exact .found hvalue
  | case3 b hb now state d hd a later hnone ih => exact .failed hnone ih

theorem turns_following (attempt : Nat → σ → Attempt σ α) (n : Nat) (b : Backoff) (now : Nat)
    (state : σ) : Turns attempt now state (following attempt n b now state) := by
  fun_induction following attempt n b now state with
  | case1 b now state => exact .ended now state
  | case2 n b now state a later value hvalue => exact .found hvalue
  | case3 n b now state a later hnone ih => exact .failed hnone ih

end LiveDetection.Retry
