import LiveDetection.Proofs.Control.Lines

/-!
# Polls while the watcher acts

The watcher and the run share the quit signal without a lock. To announce a failure takes the
watcher two actions, and a poll that finds the flag raised takes two as well, so the actions of
one of them may fall between those of the other. In whatever order they come, the polls tell to
proceed for some time and from then on always the same, which is what the watcher has found: the
message of a failure is there before the flag is, and a poll looks for it after the flag.
-/

namespace LiveDetection

/-- What a poll that has found the flag raised makes of the message. -/
def QuitSignal.reading (s : QuitSignal) : ControlStatus :=
  match s.error with
  | some reason => if reason = "" then .quit else .fatal reason
  | none => .quit

theorem QuitSignal.status_eq (s : QuitSignal) :
    s.status = if s.raised then s.reading else .proceed :=
  rfl

namespace Control

/-! ## The watcher -/

/-- What the watcher has found when it stops. -/
inductive Verdict where
  /-- The channel asks for a clean end. -/
  | quit
  /-- The channel failed. -/
  | failed (reason : String) (reason_ne : reason ≠ "")

/-- What the watcher does to the signal in one go. -/
inductive WatcherAction where
  | store (reason : String)
  | raise
deriving DecidableEq, Repr

/-- The signal after an action. -/
def WatcherAction.perform : WatcherAction → QuitSignal → QuitSignal
  | store reason, s => s.storeError reason
  | raise, s => s.raise

namespace Verdict

/-- The actions that announce a verdict. -/
def actions : Verdict → List WatcherAction
  | quit => [.raise]
  | failed reason _ => [.store reason, .raise]

/-- What polls are to tell of a verdict. -/
def status : Verdict → ControlStatus
  | quit => .quit
  | failed reason _ => .fatal reason

/-- The verdict on a channel. -/
def ofReads (reads : List ChannelRead) : Verdict :=
  if AsksToQuit (arrived reads) (breakReason? reads) then quit
  else failed (endMessage (breakReason? reads)) (endMessage_ne_empty _)

/-- The watcher changes the signal by the actions of its verdict and in no other way. -/
theorem watch_eq_actions (reads : List ChannelRead) :
    watch reads = (ofReads reads).actions.foldl (fun s action => action.perform s) {} := by
  rw [watch_eq, ofReads]
  split <;> rfl

end Verdict

/-- How far the announcement of a verdict has come: the signal, and the actions that are left. -/
inductive Announced (v : Verdict) : QuitSignal → List WatcherAction → Prop
  | nothing : Announced v {} v.actions
  | message {reason : String} (h : v.status = .fatal reason) (hne : reason ≠ "") :
    Announced v { error := some reason } [.raise]
  | all {s : QuitSignal} (hraised : s.raised) (h : s.reading = v.status) : Announced v s []

namespace Announced

variable {v : Verdict} {s : QuitSignal} {action : WatcherAction} {rest : List WatcherAction}

theorem perform (h : Announced v s (action :: rest)) : Announced v (action.perform s) rest := by
  generalize hpending : action :: rest = pending at h
  cases h with
  | nothing =>
    cases v with
    | quit =>
      cases hpending
      exact .all rfl rfl
    | failed reason hne =>
      cases hpending
      exact .message rfl hne
  | message hv hne =>
    cases hpending
    refine .all rfl ?_
    rw [hv]
    exact if_neg hne
  | all => cases hpending

/-- The flag is raised last. -/
theorem raised_iff (h : Announced v s rest) : s.raised ↔ rest = [] := by
  cases h with
  | nothing => cases v <;> simp [Verdict.actions]
  | message => simp
  | all hraised => simp [hraised]

/-- Where the flag is raised, the message is that of the verdict. -/
theorem reading_eq (h : Announced v s rest) (hraised : s.raised) : s.reading = v.status := by
  cases h with
  | nothing | message => cases hraised
  | all _ hreading => exact hreading

end Announced

/-! ## The watcher and the polls -/

/-- The watcher and the polls between two actions. -/
structure Exchange where
  signal : QuitSignal := {}
  /-- What the watcher has yet to do. -/
  pending : List WatcherAction
  /-- A poll has found the flag raised and has yet to look for the message. -/
  looking : Bool := false
  /-- What the polls have told so far. -/
  observed : List ControlStatus := []
deriving DecidableEq, Repr

/-- Who acts next. -/
inductive Party where
  | watcher
  | poll
deriving DecidableEq, Repr

namespace Exchange

/-- Before the watcher announces a verdict. -/
def start (v : Verdict) : Exchange := { pending := v.actions }

/-- One action. The watcher takes its next one, if there is one. A poll looks at the flag, and if
that is raised, at the message in an action of its own; a new poll begins when one is over. -/
def step (x : Exchange) : Party → Exchange
  | .watcher =>
    match x.pending with
    | [] => x
    | action :: rest => { x with signal := action.perform x.signal, pending := rest }
  | .poll =>
    if x.looking then
      { x with looking := false, observed := x.observed ++ [x.signal.reading] }
    else if x.signal.raised then { x with looking := true }
    else { x with observed := x.observed ++ [.proceed] }

/-- Actions in the order of a schedule. -/
def run (x : Exchange) (schedule : List Party) : Exchange := schedule.foldl step x

/-- With an action, a poll is over: it has looked for the message, or it has found the flag not
raised. -/
def completesPoll (x : Exchange) : Party → Bool
  | .watcher => false
  | .poll => x.looking || !x.signal.raised

/-- How many polls are over with the actions of a schedule. -/
def polls (x : Exchange) : List Party → Nat
  | [] => 0
  | party :: rest => (x.completesPoll party).toNat + (x.step party).polls rest

/-- A poll that no action of the watcher divides is one poll, and it tells the status of the
signal. -/
theorem run_poll (x : Exchange) (h : x.looking = false) :
    let actions := if x.signal.raised then [Party.poll, .poll] else [.poll]
    x.polls actions = 1 ∧
      x.run actions = { x with observed := x.observed ++ [x.signal.status] } := by
  obtain ⟨signal, pending, looking, observed⟩ := x
  cases h
  by_cases hraised : signal.raised
  · simp [polls, completesPoll, run, step, QuitSignal.status_eq, hraised]
  · simp [polls, completesPoll, run, step, QuitSignal.status_eq, hraised]

/-- The polls so far told to proceed, and then what the verdict is. -/
structure Faithful (v : Verdict) (x : Exchange) : Prop where
  announced : Announced v x.signal x.pending
  /-- A poll looks for the message only where the flag is raised. -/
  raised_of_looking : x.looking → x.signal.raised
  observed : ∃ n m, x.observed = List.replicate n .proceed ++ List.replicate m v.status ∧
    (0 < m → x.signal.raised)

namespace Faithful

variable {v : Verdict} {x : Exchange}

theorem start (v : Verdict) : Faithful v (start v) :=
  ⟨.nothing, fun h => (nomatch h), 0, 0, rfl, fun h => absurd h (Nat.lt_irrefl 0)⟩

theorem step_watcher (h : Faithful v x) : Faithful v (x.step .watcher) := by
  obtain ⟨hannounced, hlooking, n, m, hobserved, hm⟩ := h
  rw [step]
  split
  · exact ⟨hannounced, hlooking, n, m, hobserved, hm⟩
  · rename_i action rest hpending
    rw [hpending] at hannounced
    -- the flag is not raised before the last action, so no poll has seen it
    have hlow : ¬ x.signal.raised := by simp [hannounced.raised_iff]
    exact ⟨hannounced.perform, fun h => absurd (hlooking h) hlow, n, m, hobserved,
      fun h => absurd (hm h) hlow⟩

theorem step_poll (h : Faithful v x) : Faithful v (x.step .poll) := by
  obtain ⟨hannounced, hlooking, n, m, hobserved, hm⟩ := h
  rw [step]
  split
  · rename_i hlook
    have hraised := hlooking hlook
    refine ⟨hannounced, fun h => (nomatch h), n, m + 1, ?_, fun _ => hraised⟩
    simp only
    rw [hobserved, hannounced.reading_eq hraised, List.replicate_succ', List.append_assoc]
  · split
    · rename_i hraised
      exact ⟨hannounced, fun _ => hraised, n, m, hobserved, hm⟩
    · rename_i hlow
      obtain rfl : m = 0 := by
        by_contra hne
        exact hlow (hm (Nat.pos_of_ne_zero hne))
      refine ⟨hannounced, hlooking, n + 1, 0, ?_, fun h => absurd h (Nat.lt_irrefl 0)⟩
      simp only
      rw [hobserved, List.replicate_succ']
      simp

theorem step (h : Faithful v x) (party : Party) : Faithful v (x.step party) := by
  cases party with
  | watcher => exact h.step_watcher
  | poll => exact h.step_poll

theorem run (h : Faithful v x) (schedule : List Party) : Faithful v (x.run schedule) := by
  induction schedule generalizing x with
  | nil => exact h
  | cons party schedule ih => exact ih (h.step party)

end Faithful

/-- A poll between the two actions of the watcher tells to proceed, not to quit. -/
example : ((start (.failed "lost" (by decide))).run
    [.poll, .watcher, .poll, .watcher, .poll, .poll]).observed =
      [.proceed, .proceed, .fatal "lost"] := by
  decide

end Exchange

end Control

end LiveDetection
