import LiveDetection.Retry.Loop
import Mathlib.Algebra.Order.Floor.Div

/-!
# Retry loops laid out in time

Both retry loops take the same course: a sleep, an attempt, and after a failure the next sleep. They
differ in how long they sleep. Here a course is a table of times and states, by the number of
attempts, and each loop is shown to leave behind what its course holds up to its last attempt.
-/

namespace LiveDetection

section

variable [Resolution]

/-- The delay before an attempt, by the number of attempts that have failed. -/
def delayAfter (failures : Nat) : Nat := min (2 ^ failures * firstDelay) maximalDelay

theorem delayAfter_zero : delayAfter 0 = firstDelay := by
  rw [delayAfter, Nat.pow_zero, Nat.one_mul]
  exact Nat.min_eq_left firstDelay_le_maximalDelay

theorem firstDelay_le_delayAfter (failures : Nat) : firstDelay ≤ delayAfter failures := by
  have hpow : 0 < 2 ^ failures := Nat.two_pow_pos failures
  have hfirst : firstDelay ≤ 2 ^ failures * firstDelay := Nat.le_mul_of_pos_left _ hpow
  exact Nat.le_min.mpr ⟨hfirst, firstDelay_le_maximalDelay⟩

theorem Backoff.delay_afterFailure {b : Backoff} {failures : Nat}
    (h : b.delay = delayAfter failures) : b.afterFailure.delay = delayAfter (failures + 1) := by
  have hpow : 2 ^ (failures + 1) * firstDelay = 2 * (2 ^ failures * firstDelay) := by
    rw [Nat.pow_succ', Nat.mul_assoc]
  simp only [afterFailure, h, delayAfter, hpow]
  omega

end

namespace Retry

variable {σ α : Type}

/-- A retry loop laid out in time: its attempts, and how long it sleeps before each of them, by the
number of attempts that have failed and the time that has passed. -/
structure Course (σ α : Type) where
  attempt : Nat → σ → Attempt σ α
  pause : Nat → Nat → Nat
  start : Nat
  state : σ

namespace Course

/-- The time that has passed and the state, after a number of attempts. -/
def reached (c : Course σ α) : Nat → Nat × σ
  | 0 => (0, c.state)
  | n + 1 =>
    let later := (c.reached n).1 + c.pause n (c.reached n).1
    let a := c.attempt (c.start + later) (c.reached n).2
    (later + a.cost, a.state)

/-- The time that has passed after a number of attempts. -/
def elapsed (c : Course σ α) (n : Nat) : Nat := (c.reached n).1

/-- The state after a number of attempts. -/
def stateAfter (c : Course σ α) (n : Nat) : σ := (c.reached n).2

/-- How long the loop sleeps after a number of attempts. -/
def sleep (c : Course σ α) (n : Nat) : Nat := c.pause n (c.elapsed n)

/-- The attempt after that sleep. -/
def tried (c : Course σ α) (n : Nat) : Attempt σ α :=
  c.attempt (c.start + (c.elapsed n + c.sleep n)) (c.stateAfter n)

/-- What happens with that attempt. -/
def happened (c : Course σ α) (n : Nat) : List Event := .slept (c.sleep n) :: (c.tried n).events

/-- What `n` attempts leave behind, the first of them after `i` others. -/
def stretch (c : Course σ α) (i n : Nat) : Outcome σ α where
  result := if n = 0 then none else (c.tried (i + n - 1)).result
  events := (List.range' i n).flatMap c.happened
  now := c.start + c.elapsed (i + n)
  state := c.stateAfter (i + n)

/-- What the first `n` attempts leave behind. -/
def upTo (c : Course σ α) (n : Nat) : Outcome σ α := c.stretch 0 n

/-- What the first attempts do, without the sleeps in front of them. -/
def attemptEvents (c : Course σ α) (n : Nat) : List Event :=
  (List.range n).flatMap fun i => (c.tried i).events

variable {c : Course σ α} {i n : Nat}

@[simp] theorem elapsed_zero (c : Course σ α) : c.elapsed 0 = 0 := rfl

@[simp] theorem stateAfter_zero (c : Course σ α) : c.stateAfter 0 = c.state := rfl

theorem elapsed_succ (c : Course σ α) (n : Nat) :
    c.elapsed (n + 1) = c.elapsed n + c.sleep n + (c.tried n).cost := rfl

theorem stateAfter_succ (c : Course σ α) (n : Nat) : c.stateAfter (n + 1) = (c.tried n).state := rfl

/-- The attempt, by the time at which it starts. -/
theorem attempt_eq_tried (c : Course σ α) (n : Nat) :
    c.attempt (c.start + c.elapsed n + c.sleep n) (c.stateAfter n) = c.tried n := by
  rw [tried, Nat.add_assoc]

theorem start_add_elapsed_succ (c : Course σ α) (n : Nat) :
    c.start + c.elapsed n + c.sleep n + (c.tried n).cost = c.start + c.elapsed (n + 1) := by
  rw [elapsed_succ]
  omega

theorem elapsed_add_sleep_le (c : Course σ α) (n : Nat) :
    c.elapsed n + c.sleep n ≤ c.elapsed (n + 1) := by
  rw [elapsed_succ]
  omega

theorem elapsed_mono (c : Course σ α) : Monotone c.elapsed :=
  monotone_nat_of_le_succ fun n => Nat.le_of_add_right_le (c.elapsed_add_sleep_le n)

theorem stretch_zero (c : Course σ α) (i : Nat) :
    c.stretch i 0 = ⟨none, [], c.start + c.elapsed i, c.stateAfter i⟩ := rfl

theorem stretch_one (c : Course σ α) (i : Nat) :
    c.stretch i 1 =
      ⟨(c.tried i).result, c.happened i, c.start + c.elapsed (i + 1), c.stateAfter (i + 1)⟩ := by
  simp [stretch]

theorem now_upTo (c : Course σ α) (n : Nat) : (c.upTo n).now = c.start + c.elapsed n := by
  simp [upTo, stretch]

theorem state_upTo (c : Course σ α) (n : Nat) : (c.upTo n).state = c.stateAfter n := by
  simp [upTo, stretch]

theorem result_upTo_succ (c : Course σ α) (n : Nat) :
    (c.upTo (n + 1)).result = (c.tried n).result := by
  simp [upTo, stretch]

theorem result_upTo_eq_none (h : ∀ l < n, (c.tried l).result = none) :
    (c.upTo n).result = none := by
  cases n with
  | zero => rfl
  | succ n =>
    rw [result_upTo_succ]
    exact h n (by omega)

/-- An attempt that fails stands in front of those that follow it. -/
theorem stretch_succ (h : (c.tried i).result = none) (n : Nat) :
    c.stretch i (n + 1) = (c.stretch (i + 1) n).after (c.happened i) := by
  have hindex : i + (n + 1) = i + 1 + n := by omega
  have hresult : (c.stretch i (n + 1)).result = (c.stretch (i + 1) n).result := by
    by_cases hn : n = 0
    · simp [stretch, hn, h]
    · simp only [stretch, hn, hindex, if_false, Nat.add_one_ne_zero]
  simp only [stretch, Outcome.after, List.range'_succ, List.flatMap_cons] at hresult ⊢
  rw [hresult, hindex]

end Course

/-! ## The loops on their courses -/

variable [Resolution]

/-- The course of a loop that ends once its budget of time is spent. -/
def Course.budgeted (attempt : Nat → σ → Attempt σ α) (budget start : Nat) (state : σ) :
    Course σ α where
  attempt
  pause failures elapsed := min (budget - elapsed) (delayAfter failures)
  start
  state

/-- The course of a loop that ends with a success only. -/
def Course.endless (attempt : Nat → σ → Attempt σ α) (start : Nat) (state : σ) : Course σ α where
  attempt
  pause failures _ := delayAfter failures
  start
  state

variable {c : Course σ α} {budget i : Nat} {b : Backoff}

/-- One turn of the bounded loop, while there is time left. -/
theorem within_of_lt (hb : b.deadline = some (c.start + budget)) (hdelay : b.delay = delayAfter i)
    (hsleep : c.sleep i = min (budget - c.elapsed i) (delayAfter i))
    (htime : c.elapsed i < budget) :
    within c.attempt (c.start + budget) b hb (c.start + c.elapsed i) (c.stateAfter i) =
      match (c.tried i).result with
      | some _ => c.stretch i 1
      | none =>
        (within c.attempt (c.start + budget) b.afterFailure (by simpa using hb)
          (c.start + c.elapsed (i + 1)) (c.stateAfter (i + 1))).after (c.happened i) := by
  have hpause : b.pause? (c.start + c.elapsed i) = some (c.sleep i) := by
    have hleft : budget - c.elapsed i ≠ 0 := by omega
    simp only [Backoff.pause?, hb, Nat.add_sub_add_left, hleft, if_false, hdelay, hsleep]
  rw [within]
  split
  next hnone => rw [hpause] at hnone; cases hnone
  next d hsome =>
    obtain rfl : c.sleep i = d := Option.some.inj (hpause.symm.trans hsome)
    simp only [c.attempt_eq_tried, c.start_add_elapsed_succ]
    cases hresult : (c.tried i).result with
    | none => rfl
    | some value => simp only [c.stretch_one, hresult, Course.happened, c.stateAfter_succ]

/-- Without time left the bounded loop is over. -/
theorem within_of_le (hb : b.deadline = some (c.start + budget)) (htime : budget ≤ c.elapsed i) :
    within c.attempt (c.start + budget) b hb (c.start + c.elapsed i) (c.stateAfter i) =
      c.stretch i 0 := by
  have hpause : b.pause? (c.start + c.elapsed i) = none := by
    have hleft : budget - c.elapsed i = 0 := by omega
    simp only [Backoff.pause?, hb, Nat.add_sub_add_left, hleft, if_true]
  rw [within]
  split
  next => rw [c.stretch_zero]
  next d hsome => rw [hpause] at hsome; cases hsome

/-- One turn of the unbounded loop. -/
theorem following_succ (hdelay : b.delay = delayAfter i) (hsleep : c.sleep i = delayAfter i)
    (m : Nat) :
    following c.attempt (m + 1) b (c.start + c.elapsed i) (c.stateAfter i) =
      match (c.tried i).result with
      | some _ => c.stretch i 1
      | none =>
        (following c.attempt m b.afterFailure (c.start + c.elapsed (i + 1))
          (c.stateAfter (i + 1))).after (c.happened i) := by
  rw [following]
  simp only [hdelay, ← hsleep, c.attempt_eq_tried, c.start_add_elapsed_succ]
  cases hresult : (c.tried i).result with
  | none => rfl
  | some value => simp only [c.stretch_one, hresult, Course.happened, c.stateAfter_succ]

/-- From any point of its course on, the bounded loop makes the attempts before which there is time
left and no success. -/
theorem exists_within_eq {i : Nat} {b : Backoff}
    (hsleep : ∀ n, c.sleep n = min (budget - c.elapsed n) (delayAfter n))
    (hb : b.deadline = some (c.start + budget)) (hdelay : b.delay = delayAfter i)
    (hfailed : ∀ l < i, (c.tried l).result = none) :
    ∃ n, within c.attempt (c.start + budget) b hb (c.start + c.elapsed i) (c.stateAfter i) =
        c.stretch i n ∧
      ∀ j ≥ i, j < i + n ↔ (∀ l < j, (c.tried l).result = none) ∧ c.elapsed j < budget := by
  by_cases htime : c.elapsed i < budget
  · rw [within_of_lt hb hdelay (hsleep i) htime]
    cases hresult : (c.tried i).result with
    | some value =>
      refine ⟨1, rfl, fun j hj => ?_⟩
      constructor
      · intro hlt
        obtain rfl : j = i := by omega
        exact ⟨hfailed, htime⟩
      · rintro ⟨hnone, -⟩
        by_contra hlt
        have hfirst := hnone i (by omega)
        rw [hresult] at hfirst
        cases hfirst
    | none =>
      have hfailed' : ∀ l < i + 1, (c.tried l).result = none := by
        intro l hl
        by_cases hli : l = i
        · rw [hli, hresult]
        · exact hfailed l (by omega)
      have hprogress : c.elapsed i < c.elapsed (i + 1) := by
        have hpos := firstDelay_pos
        have hfirst := firstDelay_le_delayAfter i
        have hnext := c.elapsed_add_sleep_le i
        rw [hsleep i] at hnext
        omega
      obtain ⟨n, hrest, hmade⟩ := exists_within_eq hsleep (b := b.afterFailure)
        (by simpa using hb) (Backoff.delay_afterFailure hdelay) hfailed'
      refine ⟨n + 1, ?_, fun j hj => ?_⟩
      · simp only [hrest]
        exact (Course.stretch_succ hresult n).symm
      by_cases hji : j = i
      · subst hji
        exact iff_of_true (by omega) ⟨hfailed, htime⟩
      · rw [← hmade j (by omega)]
        omega
  · refine ⟨0, within_of_le hb (by omega), fun j hj => ?_⟩
    have hmono := c.elapsed_mono hj
    constructor
    · omega
    · rintro ⟨-, hlt⟩
      omega
termination_by budget - c.elapsed i

/-- The bounded loop makes the attempts of its course before which there is time left and no
success. -/
theorem exists_withinDuration_eq (attempt : Nat → σ → Attempt σ α) (budget start : Nat)
    (state : σ) :
    let c := Course.budgeted attempt budget start state
    ∃ n, withinDuration attempt budget start state = c.upTo n ∧
      ∀ i, i < n ↔ (∀ j < i, (c.tried j).result = none) ∧ c.elapsed i < budget := by
  intro c
  obtain ⟨n, houtcome, hmade⟩ := exists_within_eq (c := c) (i := 0)
    (b := .untilDeadline (start + budget)) (fun _ => rfl) rfl delayAfter_zero.symm (by simp)
  exact ⟨n, houtcome, by simpa using hmade⟩

/-- From any point of its course on, the unbounded loop makes all attempts up to the first that
succeeds, if it is followed for that long. -/
theorem following_eq {k : Nat} (hsleep : ∀ n, c.sleep n = delayAfter n)
    (hdelay : b.delay = delayAfter i) (hfailed : ∀ l < k, (c.tried l).result = none)
    (hvalue : (c.tried k).result.isSome) {n m : Nat} (hk : i + n = k + 1) (hm : n ≤ m)
    (hn : 0 < n) :
    following c.attempt m b (c.start + c.elapsed i) (c.stateAfter i) = c.stretch i n := by
  induction m generalizing i b n with
  | zero => omega
  | succ m ih =>
    rw [following_succ hdelay (hsleep i)]
    by_cases hik : i = k
    · obtain ⟨value, hsome⟩ := Option.isSome_iff_exists.mp hvalue
      obtain rfl : n = 1 := by omega
      rw [hik, hsome]
    · obtain ⟨n, rfl⟩ : ∃ rest, n = rest + 1 := ⟨n - 1, by omega⟩
      have hnone := hfailed i (by omega)
      have hrest := ih (Backoff.delay_afterFailure hdelay) (n := n) (by omega) (by omega) (by omega)
      simp only [hnone, hrest]
      exact (Course.stretch_succ hnone n).symm

end Retry

end LiveDetection
