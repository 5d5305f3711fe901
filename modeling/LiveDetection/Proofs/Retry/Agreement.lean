import LiveDetection.Proofs.Retry.Budget

/-!
# Bounded against unbounded retries

The two loops take the same course as long as there is time left, since a sleep is shortened only
where it uses up the budget. So on attempts that do not look at the clock the bounded loop succeeds
with the same attempt as the unbounded one, if its budget reaches up to the sleep in front of it.
-/

namespace LiveDetection.Retry

variable {σ α : Type}

namespace Course

variable {b c : Course σ α} {budget i k : Nat}

/-- What a loop leaves behind if the sleep in front of its last attempt, after `k` others, has a
length of its own. -/
def upToAfter (c : Course σ α) (k d : Nat) : Outcome σ α where
  result := (c.tried k).result
  events := (List.range k).flatMap c.happened ++ .slept d :: (c.tried k).events
  now := c.start + (c.elapsed k + d + (c.tried k).cost)
  state := (c.tried k).state

theorem upTo_succ (c : Course σ α) (k : Nat) : c.upTo (k + 1) = c.upToAfter k (c.sleep k) := by
  simp [upTo, stretch, upToAfter, ← List.range_eq_range', List.range_succ, happened, elapsed_succ,
    stateAfter_succ]

variable [Resolution]

/-- A course is another one on a budget: it has the same attempts, after the same delays, but no
sleep is longer than the time that is left. -/
structure OnBudget (b c : Course σ α) (budget : Nat) : Prop where
  attempt_eq : b.attempt = c.attempt
  start_eq : b.start = c.start
  state_eq : b.state = c.state
  sleep_eq : ∀ n, b.sleep n = min (budget - b.elapsed n) (delayAfter n)
  sleep_eq_delayAfter : ∀ n, c.sleep n = delayAfter n

theorem onBudget_budgeted (attempt : Nat → σ → Attempt σ α) (budget start : Nat) (state : σ) :
    OnBudget (budgeted attempt budget start state) (endless attempt start state) budget :=
  ⟨rfl, rfl, rfl, fun _ => rfl, fun _ => rfl⟩

namespace OnBudget

theorem tried_eq (h : OnBudget b c budget) (hreached : b.reached i = c.reached i)
    (hsleep : b.sleep i = c.sleep i) : b.tried i = c.tried i := by
  simp only [tried, elapsed, stateAfter, h.attempt_eq, h.start_eq, hreached, hsleep]

theorem reached_succ (h : OnBudget b c budget) (hreached : b.reached i = c.reached i)
    (hsleep : b.sleep i = c.sleep i) : b.reached (i + 1) = c.reached (i + 1) := by
  have htried := h.tried_eq hreached hsleep
  have helapsed : b.elapsed (i + 1) = c.elapsed (i + 1) := by
    rw [elapsed_succ, elapsed_succ, htried, hsleep, elapsed, elapsed, hreached]
  have hstate : b.stateAfter (i + 1) = c.stateAfter (i + 1) := by
    rw [stateAfter_succ, stateAfter_succ, htried]
  exact Prod.ext helapsed hstate

/-- With time left behind it, a sleep is not shortened. -/
theorem sleep_eq_sleep (h : OnBudget b c budget) (hreached : b.reached i = c.reached i)
    (htime : b.elapsed (i + 1) < budget ∨ c.elapsed (i + 1) < budget) :
    b.sleep i = c.sleep i := by
  have helapsed : b.elapsed i = c.elapsed i := congrArg Prod.fst hreached
  have hnext := b.elapsed_add_sleep_le i
  have hnext' := c.elapsed_add_sleep_le i
  have hsleep := h.sleep_eq i
  have hsleep' := h.sleep_eq_delayAfter i
  omega

/-- The two courses are the same up to a point at which there is time left. -/
theorem reached_eq (h : OnBudget b c budget) (htime : b.elapsed k < budget ∨ c.elapsed k < budget) :
    ∀ i ≤ k, b.reached i = c.reached i := by
  intro i hi
  induction i with
  | zero => exact Prod.ext rfl h.state_eq
  | succ i ih =>
    have hreached := ih (by omega)
    have hmono := b.elapsed_mono hi
    have hmono' := c.elapsed_mono hi
    exact h.reached_succ hreached (h.sleep_eq_sleep hreached (by omega))

theorem happened_eq (h : OnBudget b c budget) (htime : b.elapsed k < budget ∨ c.elapsed k < budget)
    (hi : i < k) : b.happened i = c.happened i := by
  have hreached := h.reached_eq htime i (by omega)
  have hmono := b.elapsed_mono (show i + 1 ≤ k by omega)
  have hmono' := c.elapsed_mono (show i + 1 ≤ k by omega)
  have hsleep := h.sleep_eq_sleep hreached (by omega)
  rw [happened, happened, hsleep, h.tried_eq hreached hsleep]

end OnBudget

end Course

/-! ## Attempts that do not look at the clock -/

variable {act : σ → Attempt σ α} {b c : Course σ α} {o : Outcome σ α} {budget k n : Nat}

/-- An attempt that does not look at the clock does the same after a shortened sleep. -/
theorem tried_eq_of_reached (hb : b.attempt = fun _ => act) (hc : c.attempt = fun _ => act)
    {i : Nat} (hreached : b.reached i = c.reached i) : b.tried i = c.tried i := by
  simp only [Course.tried, Course.stateAfter, hb, hc, hreached]

section

variable [Resolution]

/-- With time left in front of the last sleep, the loop on a budget reaches the attempt that
succeeds. -/
theorem eq_upToAfter_of_lt (h : b.OnBudget c budget) (hact : c.attempt = fun _ => act)
    (hspends : b.Spends budget o n) (hfailed : ∀ i < k, (c.tried i).result = none)
    (hvalue : (c.tried k).result.isSome) (htime : c.elapsed k < budget) :
    o = c.upToAfter k (min (budget - c.elapsed k) (c.sleep k)) := by
  have hreached := h.reached_eq (.inr htime)
  have htried : ∀ i ≤ k, b.tried i = c.tried i := fun i hi =>
    tried_eq_of_reached (h.attempt_eq.trans hact) hact (hreached i hi)
  have helapsed : b.elapsed k = c.elapsed k := congrArg Prod.fst (hreached k (Nat.le_refl k))
  have hsleep : b.sleep k = min (budget - c.elapsed k) (c.sleep k) := by
    rw [h.sleep_eq, h.sleep_eq_delayAfter, helapsed]
  obtain rfl : n = k + 1 := by
    have hmade : k < n := by
      refine (hspends.made_iff k).mpr ⟨fun i hi => ?_, by omega⟩
      rw [htried i (by omega), hfailed i hi]
    have hlast : ¬ k + 1 < n := by
      intro hlt
      have hnone := ((hspends.made_iff (k + 1)).mp hlt).1 k (by omega)
      rw [← htried k (Nat.le_refl k), hnone] at hvalue
      cases hvalue
    omega
  have hevents : (List.range k).flatMap b.happened = (List.range k).flatMap c.happened :=
    List.flatMap_congr fun i hi => h.happened_eq (.inr htime) (List.mem_range.mp hi)
  rw [hspends.outcome_eq, b.upTo_succ, hsleep]
  simp only [Course.upToAfter, htried k (Nat.le_refl k), helapsed, hevents, h.start_eq]

theorem lt_of_isSome (h : b.OnBudget c budget) (hact : c.attempt = fun _ => act)
    (hspends : b.Spends budget o n) (hfailed : ∀ i < k, (c.tried i).result = none)
    (hsome : o.result.isSome) : c.elapsed k < budget := by
  obtain ⟨i, hi, hvalue⟩ := hspends.isSome_iff.mp hsome
  have htime := ((hspends.made_iff i).mp hi).2
  have hreached := h.reached_eq (.inl htime) i (Nat.le_refl i)
  have helapsed : b.elapsed i = c.elapsed i := congrArg Prod.fst hreached
  rw [tried_eq_of_reached (h.attempt_eq.trans hact) hact hreached] at hvalue
  have hik : k ≤ i := by
    by_contra hlt
    rw [hfailed i (by omega)] at hvalue
    cases hvalue
  have hmono := c.elapsed_mono hik
  omega

/-- Two loops agree on a course whose attempt after `k` failures succeeds first. One of them is
given a budget; the other one is followed for a number of attempts. -/
structure Agree (c : Course σ α) (bounded unbounded : Nat → Outcome σ α) (k : Nat) : Prop where
  /-- The unbounded loop makes the attempts up to that one. -/
  unbounded_eq : ∀ m > k, unbounded m = c.upToAfter k (c.sleep k)
  /-- The bounded loop succeeds if and only if there is time left in front of its last sleep. -/
  isSome_iff : ∀ budget, (bounded budget).result.isSome ↔ c.elapsed k < budget
  /-- Then it makes the same attempts after the same sleeps, but that the last sleep ends with the
  budget if it would be longer. -/
  bounded_eq : ∀ budget, c.elapsed k < budget →
    bounded budget = c.upToAfter k (min (budget - c.elapsed k) (c.sleep k))
  mono : ∀ budget budget', budget ≤ budget' → (bounded budget).result.isSome →
    (bounded budget').result.isSome
  /-- With time left for the whole sleep, the loops do the same. -/
  bounded_eq_unbounded : ∀ budget, c.elapsed k + c.sleep k ≤ budget →
    ∀ m > k, bounded budget = unbounded m

/-- On attempts that do not look at the clock, the bounded and the unbounded loop agree. -/
theorem agree_withinDuration_following (act : σ → Attempt σ α) (start : Nat) (state : σ) {k : Nat}
    (hfailed : ∀ i < k, ((Course.endless (fun _ => act) start state).tried i).result = none)
    (hvalue : ((Course.endless (fun _ => act) start state).tried k).result.isSome) :
    Agree (Course.endless (fun _ => act) start state)
      (fun budget => withinDuration (fun _ => act) budget start state)
      (fun m => following (fun _ => act) m .endless start state) k := by
  set c := Course.endless (fun _ => act) start state with hc
  have hbounded : ∀ budget, c.elapsed k < budget →
      withinDuration (fun _ => act) budget start state =
        c.upToAfter k (min (budget - c.elapsed k) (c.sleep k)) := by
    intro budget htime
    obtain ⟨n, houtcome, hmade⟩ := exists_withinDuration_eq (fun _ => act) budget start state
    rw [houtcome]
    exact eq_upToAfter_of_lt (Course.onBudget_budgeted _ _ _ _) rfl
      (Course.spends_upTo (fun _ => rfl) hmade) hfailed hvalue htime
  have hunbounded : ∀ m > k, following (fun _ => act) m .endless start state =
      c.upToAfter k (c.sleep k) := by
    intro m hm
    rw [← c.upTo_succ]
    exact following_eq (i := 0) (fun _ => rfl) delayAfter_zero.symm hfailed hvalue (by omega)
      (by omega) (by omega)
  have hsome : ∀ budget, (withinDuration (fun _ => act) budget start state).result.isSome ↔
      c.elapsed k < budget := by
    intro budget
    constructor
    · obtain ⟨n, houtcome, hmade⟩ := exists_withinDuration_eq (fun _ => act) budget start state
      rw [houtcome]
      exact lt_of_isSome (Course.onBudget_budgeted _ _ _ _) rfl
        (Course.spends_upTo (fun _ => rfl) hmade) hfailed
    · intro htime
      rw [hbounded budget htime]
      exact hvalue
  have hpos : 0 < c.sleep k :=
    Nat.lt_of_lt_of_le firstDelay_pos (firstDelay_le_delayAfter k)
  constructor
  case unbounded_eq => exact hunbounded
  case isSome_iff => exact hsome
  case bounded_eq => exact hbounded
  case mono =>
    intro budget budget' hle
    rw [hsome, hsome]
    omega
  case bounded_eq_unbounded =>
    intro budget hle m hm
    have hmin : min (budget - c.elapsed k) (c.sleep k) = c.sleep k := by omega
    rw [hbounded budget (by omega), hunbounded m hm, hmin]

end

/-- Two failures and a success, the second failure after seven milliseconds. -/
def sampleScript : Script := { outcomes := [false, false, true], costs := [500, 7000, 20] }

theorem agree_sampleScript :
    let c := Course.endless (fun _ => Script.attempt 0) 0 sampleScript
    (∀ i < 2, (c.tried i).result = none) ∧ (c.tried 2).result.isSome ∧
      Agree c sampleScript.runWithin (fun m => following Script.attempt m .endless 0 sampleScript)
        2 := by
  intro c
  have hfailed : ∀ i < 2, (c.tried i).result = none := by decide +kernel
  have hvalue : (c.tried 2).result.isSome := by decide +kernel
  exact ⟨hfailed, hvalue,
    agree_withinDuration_following (Script.attempt 0) 0 sampleScript hfailed hvalue⟩

/-- The last sleep starts after ten milliseconds and a half, and is shortened to the time left. -/
example : sleepsOf (sampleScript.runWithin 12000).events = [1000, 2000, 1500] := by
  decide +kernel

end LiveDetection.Retry
