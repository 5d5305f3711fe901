import LiveDetection.Proofs.Retry.Course

/-!
# Handing a retry over

Attempts that do not look at the clock do the same on every course that reaches their state, however
long it sleeps. So a loop on a budget may stop anywhere and leave the rest to an endless loop, whose
delays begin anew: together the two make the attempts that a single endless loop would have made.
-/

namespace LiveDetection.Retry

variable {σ α : Type}

/-- Two attempts do the same, though they may differ in the time that they take. -/
structure Attempt.Alike (a a' : Attempt σ α) : Prop where
  result_eq : a.result = a'.result
  events_eq : a.events = a'.events
  state_eq : a.state = a'.state

/-- The clock decides at most how long an attempt takes. -/
def ClockFree (attempt : Nat → σ → Attempt σ α) : Prop :=
  ∀ now now' state, (attempt now state).Alike (attempt now' state)

namespace Course

variable {c d : Course σ α} {i n : Nat}

theorem alike_tried_of_stateAfter (hfree : ClockFree c.attempt) (hattempt : d.attempt = c.attempt)
    {j : Nat} (hstate : d.stateAfter j = c.stateAfter i) : (d.tried j).Alike (c.tried i) := by
  rw [tried, tried, hattempt, hstate]
  exact hfree _ _ _

/-- A course that takes over after some attempts of another one goes through the same states. -/
theorem stateAfter_add (hfree : ClockFree c.attempt) (hattempt : d.attempt = c.attempt)
    (hstate : d.state = c.stateAfter i) (n : Nat) : d.stateAfter n = c.stateAfter (i + n) := by
  induction n with
  | zero => exact hstate
  | succ n ih =>
    rw [stateAfter_succ, ← Nat.add_assoc, stateAfter_succ]
    exact (alike_tried_of_stateAfter hfree hattempt ih).state_eq

theorem alike_tried (hfree : ClockFree c.attempt) (hattempt : d.attempt = c.attempt)
    (hstate : d.state = c.stateAfter i) (n : Nat) : (d.tried n).Alike (c.tried (i + n)) :=
  alike_tried_of_stateAfter hfree hattempt (stateAfter_add hfree hattempt hstate n)

/-- The attempts before and after a course takes over are those of the other one. -/
theorem attemptEvents_add (hfree : ClockFree c.attempt) (hattempt : d.attempt = c.attempt)
    (hstate : d.state = c.stateAfter i) (n : Nat) :
    c.attemptEvents (i + n) = c.attemptEvents i ++ d.attemptEvents n := by
  rw [attemptEvents, List.range_add, List.flatMap_append, List.flatMap_map]
  congr 1
  refine List.flatMap_congr fun j _ => ?_
  exact (alike_tried hfree hattempt hstate j).events_eq.symm

theorem attemptEvents_eq (hfree : ClockFree c.attempt) (hattempt : d.attempt = c.attempt)
    (hstate : d.state = c.state) (n : Nat) : d.attemptEvents n = c.attemptEvents n := by
  have hadd := attemptEvents_add (i := 0) hfree hattempt hstate n
  rw [Nat.zero_add] at hadd
  exact hadd.symm

end Course

variable [Resolution]

/-- An endless loop that is followed up to its first success. -/
theorem following_endless {attempt : Nat → σ → Attempt σ α} {start : Nat} {state : σ} {k m : Nat}
    (hfailed : ∀ i < k, ((Course.endless attempt start state).tried i).result = none)
    (hvalue : ((Course.endless attempt start state).tried k).result.isSome) (hm : k < m) :
    following attempt m .endless start state = (Course.endless attempt start state).upTo (k + 1) :=
  following_eq (c := .endless attempt start state) (i := 0) (fun _ => rfl) delayAfter_zero.symm
    hfailed hvalue (by omega) (by omega) (by omega)

/-- Where a loop on a budget stands if the attempt after `k` failures is the first to succeed: it
has made that attempt, or it has spent its budget on some of the failures, and an endless loop that
takes over succeeds with the same attempt. -/
inductive HandsOver (attempt : Nat → σ → Attempt σ α) (budget start : Nat) (state : σ) (k : Nat) :
    Outcome σ α → Prop
  | succeeded
    (htime : ∀ i < k + 1, (Course.budgeted attempt budget start state).elapsed i < budget)
    (hvalue : ((Course.budgeted attempt budget start state).upTo (k + 1)).result =
      ((Course.endless attempt start state).tried k).result) :
    HandsOver attempt budget start state k
      ((Course.budgeted attempt budget start state).upTo (k + 1))
  | spent {n m : Nat} (hk : k = n + m)
    (htime : ∀ i < n, (Course.budgeted attempt budget start state).elapsed i < budget)
    (hnone : ((Course.budgeted attempt budget start state).upTo n).result = none)
    (hspent : budget ≤ (Course.budgeted attempt budget start state).elapsed n)
    {d : Course σ α}
    (hd : d = .endless attempt ((Course.budgeted attempt budget start state).upTo n).now
      ((Course.budgeted attempt budget start state).upTo n).state)
    (hfailed : ∀ i < m, (d.tried i).result = none)
    (hvalue : (d.tried m).result = ((Course.endless attempt start state).tried k).result) :
    HandsOver attempt budget start state k
      ((Course.budgeted attempt budget start state).upTo n)

theorem handsOver_withinDuration {attempt : Nat → σ → Attempt σ α} (hfree : ClockFree attempt)
    (budget start : Nat) (state : σ) {k : Nat}
    (hfailed : ∀ i < k, ((Course.endless attempt start state).tried i).result = none)
    (hvalue : ((Course.endless attempt start state).tried k).result.isSome) :
    HandsOver attempt budget start state k (withinDuration attempt budget start state) := by
  set c := Course.endless attempt start state with hc
  set b := Course.budgeted attempt budget start state with hb
  have halike : ∀ i, (b.tried i).Alike (c.tried i) := by
    intro i
    have h := Course.alike_tried (c := c) (d := b) (i := 0) hfree rfl rfl i
    rwa [Nat.zero_add] at h
  obtain ⟨n, houtcome, hmade⟩ := exists_withinDuration_eq attempt budget start state
  rw [houtcome]
  have hlast : n ≤ k + 1 := by
    by_contra hlt
    have hnone := ((hmade (k + 1)).mp (by omega)).1 k (by omega)
    rw [← (halike k).result_eq, hnone] at hvalue
    cases hvalue
  have htime : ∀ i < n, b.elapsed i < budget := fun i hi => ((hmade i).mp hi).2
  by_cases hk : n = k + 1
  · subst hk
    have hvalue' : (b.upTo (k + 1)).result = (c.tried k).result := by
      rw [Course.result_upTo_succ, (halike k).result_eq]
    exact .succeeded htime hvalue'
  · have hn : n ≤ k := by omega
    have hearly : ∀ i < n, (b.tried i).result = none := by
      intro i hi
      rw [(halike i).result_eq]
      exact hfailed i (by omega)
    have hspent : budget ≤ b.elapsed n := by
      by_contra htime
      have hmore := (hmade n).mpr ⟨hearly, Nat.lt_of_not_le htime⟩
      omega
    have hlate : ∀ i, ((Course.endless attempt (b.upTo n).now (b.upTo n).state).tried i).Alike
        (c.tried (n + i)) := by
      have hstate : (b.upTo n).state = c.stateAfter n := by
        have h := Course.stateAfter_add (c := c) (d := b) (i := 0) hfree rfl rfl n
        rwa [Nat.zero_add, ← Course.state_upTo] at h
      exact Course.alike_tried hfree rfl hstate
    obtain ⟨m, rfl⟩ := Nat.exists_eq_add_of_le hn
    refine .spent rfl htime (Course.result_upTo_eq_none hearly) hspent rfl ?_ (hlate m).result_eq
    intro i hi
    rw [(hlate i).result_eq]
    exact hfailed (n + i) (by omega)

end LiveDetection.Retry
