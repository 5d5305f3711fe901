import LiveDetection.Proofs.Retry.Course
import LiveDetection.Retry.Script

/-!
# Retrying on a budget

The bounded loop makes an attempt while there is time left and none has succeeded. It never sleeps
beyond its budget, and only the sleep in front of its last attempt may be shorter than the delay.
So it makes no more attempts than there are first delays in the budget.
-/

namespace LiveDetection.Retry

variable {σ α : Type}

namespace Course

variable {c : Course σ α} {budget n : Nat}

theorem sum_sleep_le_elapsed (c : Course σ α) (n : Nat) :
    ((List.range n).map c.sleep).sum ≤ c.elapsed n := by
  induction n with
  | zero => simp
  | succ n ih =>
    have hnext := c.elapsed_add_sleep_le n
    simp only [List.range_succ, List.map_append, List.sum_append, List.map_singleton,
      List.sum_singleton]
    omega

variable [Resolution]

/-- A sleep is shortened only if the budget is spent behind it. -/
theorem sleep_eq_delayAfter (hsleep : c.sleep n = min (budget - c.elapsed n) (delayAfter n))
    (h : c.elapsed (n + 1) < budget) : c.sleep n = delayAfter n := by
  have hnext := c.elapsed_add_sleep_le n
  omega

theorem mul_firstDelay_le_elapsed
    (hsleep : ∀ n, c.sleep n = min (budget - c.elapsed n) (delayAfter n))
    (h : c.elapsed n < budget) : n * firstDelay ≤ c.elapsed n := by
  induction n with
  | zero => simp
  | succ n ih =>
    have hnext := c.elapsed_add_sleep_le n
    have hfull := sleep_eq_delayAfter (hsleep n) h
    have hfirst := firstDelay_le_delayAfter n
    have hrest := ih (by omega)
    rw [Nat.succ_mul]
    omega

/-- The bounded loop spends its budget on a course, with a number of attempts. -/
structure Spends (c : Course σ α) (budget : Nat) (o : Outcome σ α) (n : Nat) : Prop where
  /-- The sleep in front of an attempt is the least of the time that is left, the delay that has
  doubled with every failure, and the longest delay. -/
  sleep_eq : ∀ i,
    c.sleep i = min (budget - c.elapsed i) (min (2 ^ i * firstDelay) maximalDelay)
  /-- The loop leaves behind what the first attempts of the course do, in their order. -/
  outcome_eq : o = c.upTo n
  /-- An attempt is made if and only if all attempts before it failed and there is time left. -/
  made_iff : ∀ i, i < n ↔ (∀ j < i, (c.tried j).result = none) ∧ c.elapsed i < budget
  /-- The loop succeeds if and only if an attempt that it makes does. -/
  isSome_iff : o.result.isSome ↔ ∃ i < n, (c.tried i).result.isSome
  /-- No attempt starts after the budget is spent. -/
  start_le : ∀ i < n, c.elapsed i + c.sleep i ≤ budget
  sum_sleep_le : ((List.range n).map c.sleep).sum ≤ budget
  attempts_le : n ≤ budget ⌈/⌉ firstDelay
  /-- Without a success the budget is spent at the end. -/
  le_elapsed : o.result = none → budget ≤ c.elapsed n
  /-- If the attempts take no time, it is spent to the point. -/
  elapsed_eq : o.result = none → (∀ i < n, (c.tried i).cost = 0) → c.elapsed n = budget

/-- All that the bounded loop does follows from how long it sleeps and which attempts it makes. -/
theorem spends_upTo (hsleep : ∀ n, c.sleep n = min (budget - c.elapsed n) (delayAfter n))
    (hmade : ∀ i, i < n ↔ (∀ j < i, (c.tried j).result = none) ∧ c.elapsed i < budget) :
    c.Spends budget (c.upTo n) n := by
  have hstart : ∀ i < n, c.elapsed i + c.sleep i ≤ budget := by
    intro i hi
    have htime := ((hmade i).mp hi).2
    rw [hsleep i]
    omega
  have hnone : (c.upTo n).result = none → ∀ i < n, (c.tried i).result = none := by
    intro hresult i hi
    by_cases hlast : i + 1 = n
    · subst hlast
      simpa [upTo, stretch] using hresult
    · exact ((hmade (i + 1)).mp (by omega)).1 i (by omega)
  have hover : (c.upTo n).result = none → budget ≤ c.elapsed n := by
    intro hresult
    by_contra htime
    exact Nat.lt_irrefl n ((hmade n).mpr ⟨hnone hresult, by omega⟩)
  constructor
  case sleep_eq => exact hsleep
  case outcome_eq => rfl
  case made_iff => exact hmade
  case isSome_iff =>
    constructor
    · intro hsome
      by_cases hn : n = 0
      · simp [upTo, stretch, hn] at hsome
      · exact ⟨n - 1, by omega, by simpa [upTo, stretch, hn] using hsome⟩
    · rintro ⟨i, hi, hsome⟩
      by_contra hresult
      rw [hnone (by simpa using hresult) i hi] at hsome
      cases hsome
  case start_le => exact hstart
  case sum_sleep_le =>
    cases n with
    | zero => simp
    | succ m =>
      have hsum := c.sum_sleep_le_elapsed m
      have hlast := hstart m (by omega)
      simp only [List.range_succ, List.map_append, List.sum_append, List.map_singleton,
        List.sum_singleton]
      omega
  case attempts_le =>
    cases n with
    | zero => simp
    | succ m =>
      have htime := ((hmade m).mp (by omega)).2
      have hdelays := mul_firstDelay_le_elapsed hsleep htime
      have hpos := firstDelay_pos
      rw [Nat.ceilDiv_eq_add_pred_div, Nat.le_div_iff_mul_le hpos, Nat.succ_mul]
      omega
  case le_elapsed => exact hover
  case elapsed_eq =>
    intro hresult hcosts
    have hspent := hover hresult
    cases n with
    | zero =>
      rw [elapsed_zero] at hspent ⊢
      omega
    | succ m =>
      have hlast := hstart m (by omega)
      have hcost := hcosts m (by omega)
      rw [elapsed_succ, hcost] at hspent ⊢
      omega

end Course

section

variable [Resolution]

/-- For any attempts and any budget, the bounded loop spends its budget on its course: it comes to
an end, and its last attempt is the one that succeeds or the one behind which no time is left. -/
theorem spends_withinDuration (attempt : Nat → σ → Attempt σ α) (budget start : Nat) (state : σ) :
    ∃ n, (Course.budgeted attempt budget start state).Spends budget
      (withinDuration attempt budget start state) n := by
  obtain ⟨n, houtcome, hmade⟩ := exists_withinDuration_eq attempt budget start state
  rw [houtcome]
  exact ⟨n, Course.spends_upTo (fun _ => rfl) hmade⟩

/-- An attempt of the course brings a value, and those before it leave time for it. -/
def Course.Succeeds (c : Course σ α) (budget : Nat) : Prop :=
  ∃ i, (∀ j < i, (c.tried j).result = none) ∧ c.elapsed i < budget ∧ (c.tried i).result.isSome

theorem isSome_withinDuration_iff {attempt : Nat → σ → Attempt σ α} {budget start : Nat}
    {state : σ} :
    (withinDuration attempt budget start state).result.isSome ↔
      (Course.budgeted attempt budget start state).Succeeds budget := by
  obtain ⟨n, houtcome, hmade⟩ := exists_withinDuration_eq attempt budget start state
  rw [houtcome, (Course.spends_upTo (fun _ => rfl) hmade).isSome_iff]
  constructor
  · intro ⟨i, hi, hvalue⟩
    obtain ⟨hfailed, htime⟩ := (hmade i).mp hi
    exact ⟨i, hfailed, htime, hvalue⟩
  · intro ⟨i, hfailed, htime, hvalue⟩
    exact ⟨i, (hmade i).mpr ⟨hfailed, htime⟩, hvalue⟩

theorem le_now_withinDuration {attempt : Nat → σ → Attempt σ α} {budget start : Nat} {state : σ}
    (h : (withinDuration attempt budget start state).result = none) :
    start + budget ≤ (withinDuration attempt budget start state).now := by
  obtain ⟨n, houtcome, hmade⟩ := exists_withinDuration_eq attempt budget start state
  rw [houtcome] at h ⊢
  have hover := (Course.spends_upTo (fun _ => rfl) hmade).le_elapsed h
  rw [Course.now_upTo]
  exact Nat.add_le_add_left hover start

end

/-- A budget of a tenth of a second is spent on seven attempts, the last after a shortened sleep. -/
example : sleepsOf (Script.runWithin { outcomes := [], last := false } 100000).events =
    [1000, 2000, 4000, 8000, 16000, 32000, 37000] := by decide +kernel

/-- A budget of a microsecond and a half, in nanoseconds, is spent on one attempt. -/
example : sleepsOf (@Script.runWithin .nano { outcomes := [], last := false } 1500).events =
    [1500] := by decide +kernel

end LiveDetection.Retry
