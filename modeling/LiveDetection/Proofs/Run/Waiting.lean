import LiveDetection.Proofs.Capture.Calls
import LiveDetection.Proofs.Retry.Budget
import LiveDetection.Proofs.Run.Stalls

/-!
# Waiting for a frame

A run that waits for a frame has two windows to reconnect in, one before it reports a stall and one
after it. `Awaits` lists the ways in which that can go: what each of them takes of the windows and
of the publisher, and the events and the stream that it leaves behind.
-/

namespace LiveDetection

namespace Event

/-- The event is neither a call to the source nor a sleep. -/
def isApart (e : Event) : Bool := !e.isCall && e.sleep?.isNone

theorem sleep?_of_isCall {e : Event} (h : e.isCall = true) : e.sleep? = none := by
  cases e with
  | slept duration => cases h
  | _ => rfl

theorem isApart_of_isCall {e : Event} (h : e.isCall = true) : e.isApart = false := by
  simp [isApart, h]

end Event

/-- What happens besides the calls to the source and the sleeps, in order. -/
def apartOf (events : List Event) : List Event := events.filter Event.isApart

@[simp] theorem apartOf_nil : apartOf [] = [] := rfl

@[simp] theorem apartOf_append (front back : List Event) :
    apartOf (front ++ back) = apartOf front ++ apartOf back :=
  List.filter_append _ _

@[simp] theorem apartOf_read (frame : Option Frame) (events : List Event) :
    apartOf (.read frame :: events) = apartOf events := rfl

@[simp] theorem apartOf_phaseReport (c : JobConfig) (phase : RunPhase) (accepted : Bool)
    (events : List Event) :
    apartOf (.phaseReport c phase accepted :: events) =
      .phaseReport c phase accepted :: apartOf events := rfl

@[simp] theorem callsOf_nil : callsOf [] = [] := rfl

@[simp] theorem callsOf_read (frame : Option Frame) (events : List Event) :
    callsOf (.read frame :: events) = .read frame :: callsOf events := rfl

@[simp] theorem callsOf_phaseReport (c : JobConfig) (phase : RunPhase) (accepted : Bool)
    (events : List Event) : callsOf (.phaseReport c phase accepted :: events) = callsOf events :=
  rfl

@[simp] theorem sleepsOf_nil : sleepsOf [] = [] := rfl

@[simp] theorem sleepsOf_read (frame : Option Frame) (events : List Event) :
    sleepsOf (.read frame :: events) = sleepsOf events := rfl

@[simp] theorem sleepsOf_phaseReport (c : JobConfig) (phase : RunPhase) (accepted : Bool)
    (events : List Event) : sleepsOf (.phaseReport c phase accepted :: events) = sleepsOf events :=
  rfl

namespace LiveStream

variable {σ : Type} [VideoSource σ]

/-! ## Attempts to reconnect -/

/-- An attempt reads what it yields, unless the source cannot be opened. -/
theorem events_reopen (uri : String) (now : Nat) (source : σ) :
    (reopen uri now source).events =
        [.closed, .opened uri true, .read (reopen uri now source).result] ∨
      (reopen uri now source).events = [.closed, .opened uri false] ∧
        (reopen uri now source).result = none := by
  simp only [reopen]
  split
  · exact .inl rfl
  · exact .inr ⟨rfl, rfl⟩

theorem isCall_of_mem_reopen {uri : String} {now : Nat} {source : σ} {e : Event}
    (h : e ∈ (reopen uri now source).events) : e.isCall = true := by
  rcases events_reopen uri now source with hevents | ⟨hevents, -⟩
  · rw [hevents] at h
    simp only [List.mem_cons, List.not_mem_nil, or_false] at h
    rcases h with rfl | rfl | rfl <;> rfl
  · rw [hevents] at h
    simp only [List.mem_cons, List.not_mem_nil, or_false] at h
    rcases h with rfl | rfl <;> rfl

/-- An attempt is a sleep and calls. -/
theorem apartOf_attempt (uri : String) (d now : Nat) (source : σ) :
    apartOf (.slept d :: (reopen uri now source).events) = [] := by
  refine List.filter_eq_nil_iff.mpr ?_
  intro e he
  rcases List.mem_cons.mp he with rfl | he
  · simp [Event.isApart, Event.sleep?]
  · simp [Event.isApart_of_isCall (isCall_of_mem_reopen he)]

/-- Nothing else happens while a stream is reconnected. -/
theorem apartOf_of_turns {uri : String} {now : Nat} {source : σ} {o : Retry.Outcome σ Frame}
    (h : Retry.Turns (reopen uri) now source o) : apartOf o.events = [] := by
  induction h with
  | ended => rfl
  | @found now d source => exact apartOf_attempt uri d (now + d) source
  | @failed now d source o _ _ ih =>
    rw [Retry.Outcome.after, apartOf_append, apartOf_attempt, ih, List.append_nil]

section

variable {uri : String} {c : Retry.Course σ Frame} (hc : c.attempt = reopen uri) (n : Nat)

include hc

theorem isCall_of_mem_tried {e : Event} (h : e ∈ (c.tried n).events) : e.isCall = true := by
  rw [Retry.Course.tried, hc] at h
  exact isCall_of_mem_reopen h

/-- A reconnection makes the calls of its attempts. -/
theorem callsOf_upTo : callsOf (c.upTo n).events = c.attemptEvents n := by
  rw [Retry.Course.upTo, Retry.Course.stretch, callsOf, List.filter_flatMap,
    ← List.range_eq_range']
  refine List.flatMap_congr fun j _ => ?_
  rw [Retry.Course.happened, List.filter_cons_of_neg (by simp [Event.isCall]), List.filter_eq_self]
  intro e he
  exact isCall_of_mem_tried hc j he

/-- It sleeps in front of each of them. -/
theorem sleepsOf_upTo : sleepsOf (c.upTo n).events = (List.range n).map c.sleep := by
  rw [Retry.Course.upTo, Retry.Course.stretch, sleepsOf, List.filterMap_flatMap,
    List.map_eq_flatMap, ← List.range_eq_range']
  refine List.flatMap_congr fun j _ => ?_
  have hcalls : (c.tried j).events.filterMap Event.sleep? = [] := by
    refine List.filterMap_eq_nil_iff.mpr ?_
    intro e he
    exact Event.sleep?_of_isCall (isCall_of_mem_tried hc j he)
  simp [Retry.Course.happened, Event.sleep?, hcalls]

theorem apartOf_upTo : apartOf (c.upTo n).events = [] := by
  rw [Retry.Course.upTo, Retry.Course.stretch, apartOf, List.filter_flatMap]
  refine List.flatMap_eq_nil_iff.mpr ?_
  intro j _
  rw [Retry.Course.happened, Retry.Course.tried, hc]
  exact apartOf_attempt uri _ _ _

end

end LiveStream

namespace JobRun

variable {σ δ π : Type} [VideoSource σ]

/-! ## The two windows -/

/-- The stream once the plain read is over. -/
def lost (e : JobRun σ δ π) : LiveStream σ := e.stream.after (.read none)

variable [Resolution]

/-- The reconnection before a stall is reported. -/
def firstWindow (c : JobConfig) (s : LiveStream σ) : Retry.Outcome σ Frame :=
  Retry.withinDuration (LiveStream.reopen s.uri) c.stallAlertTicks s.now s.source

/-- The course of the first window. -/
def firstCourse (e : JobRun σ δ π) : Retry.Course σ Frame :=
  .budgeted (LiveStream.reopen e.lost.uri) e.config.stallAlertTicks e.lost.now e.lost.source

theorem turns_of_firstWindow {c : JobConfig} {s : LiveStream σ} {first : Retry.Outcome σ Frame}
    (h : firstWindow c s = first) :
    Retry.Turns (LiveStream.reopen s.uri) s.now s.source first := by
  rw [← h]
  exact Retry.turns_within _ rfl _ _

theorem turns_of_secondWindow {c : JobConfig} {s : LiveStream σ} {second : Retry.Outcome σ Frame}
    (h : secondWindow c s = second) :
    Retry.Turns (LiveStream.reopen s.uri) s.now s.source second := by
  rw [← h]
  cases htimeout : c.stallTimeout with
  | none =>
    simp only [secondWindow, htimeout]
    exact Retry.turns_following _ _ _ _ _
  | some timeout =>
    simp only [secondWindow, htimeout]
    exact Retry.turns_within _ rfl _ _

variable [Publisher π]

/-- What the queue for job states says to the report of a phase. -/
def publishPhase (c : JobConfig) (phase : RunPhase) (p : π) : Except RunError Unit × π :=
  Publisher.publish c.transport.jobStatusQueue (c.phaseMessage phase) p

omit [Resolution] [VideoSource σ] in
theorem run_reportPhase (phase : RunPhase) (e : JobRun σ δ π) :
    (reportPhase phase).run e =
      ⟨match (publishPhase e.config phase e.publisher).1 with
        | .ok () => .value ()
        | .error error => .failed
            (publishError e.config.transport.jobStatusQueue error.message),
        [.phaseReport e.config phase (publishPhase e.config phase e.publisher).1.isOk],
        { e with publisher := (publishPhase e.config phase e.publisher).2 }⟩ :=
  run_send (JobStatus.toMessage_eq _) e

/-! ## The ways to wait -/

/-- The plain read has failed, and so has the first window. -/
structure Stalls (e : JobRun σ δ π) (first : Retry.Outcome σ Frame) : Prop where
  read_eq : (VideoSource.nextPicture e.stream.now e.stream.source).value = none
  first_eq : firstWindow e.config e.lost = first
  result_eq : first.result = none

/-- A wait for a frame: how it ends, what happens and the stream that it leaves behind. -/
inductive Awaits (e : JobRun σ δ π) : Ending Frame → List Event → LiveStream σ → Prop
  /-- The plain read brings the frame. -/
  | read {frame : Frame}
    (hread : (VideoSource.nextPicture e.stream.now e.stream.source).value = some frame) :
    Awaits e (.value frame) [.read (some frame)] e.lost
  /-- The first window brings the frame. -/
  | reconnected {first : Retry.Outcome σ Frame} {frame : Frame}
    (hread : (VideoSource.nextPicture e.stream.now e.stream.source).value = none)
    (hfirst : firstWindow e.config e.lost = first) (hframe : first.result = some frame) :
    Awaits e (.value frame) (.read none :: first.events) (e.lost.leftBy first)
  /-- The queue does not take the report of the stall. -/
  | unreported {first : Retry.Outcome σ Frame} {p : π} {error : RunError} (h : e.Stalls first)
    (hreport : publishPhase e.config .stalled e.publisher = (.error error, p)) :
    Awaits e (.failed (publishError e.config.transport.jobStatusQueue error.message))
      (.read none :: (first.events ++ [.phaseReport e.config .stalled false]))
      (e.lost.leftBy first)
  /-- The stall is reported, and the second window brings no frame. -/
  | unrecovered {first second : Retry.Outcome σ Frame} {p : π} (h : e.Stalls first)
    (hreport : publishPhase e.config .stalled e.publisher = (.ok (), p))
    (hsecond : secondWindow e.config (e.lost.leftBy first) = second)
    (hframe : second.result = none) :
    Awaits e (unrecovered e.config e.stream.uri)
      (.read none :: (first.events ++ .phaseReport e.config .stalled true :: second.events))
      ((e.lost.leftBy first).leftBy second)
  /-- The second window brings the frame, but the queue does not take the report of that. -/
  | unannounced {first second : Retry.Outcome σ Frame} {p p' : π} {frame : Frame} {error : RunError}
    (h : e.Stalls first) (hreport : publishPhase e.config .stalled e.publisher = (.ok (), p))
    (hsecond : secondWindow e.config (e.lost.leftBy first) = second)
    (hframe : second.result = some frame)
    (hanswer : publishPhase e.config .inProgress p = (.error error, p')) :
    Awaits e (.failed (publishError e.config.transport.jobStatusQueue error.message))
      (.read none :: (first.events ++ .phaseReport e.config .stalled true ::
        (second.events ++ [.phaseReport e.config .inProgress false])))
      ((e.lost.leftBy first).leftBy second)
  /-- The second window brings the frame, and that is reported, too. -/
  | recovered {first second : Retry.Outcome σ Frame} {p p' : π} {frame : Frame}
    (h : e.Stalls first) (hreport : publishPhase e.config .stalled e.publisher = (.ok (), p))
    (hsecond : secondWindow e.config (e.lost.leftBy first) = second)
    (hframe : second.result = some frame)
    (hanswer : publishPhase e.config .inProgress p = (.ok (), p')) :
    Awaits e (.value frame)
      (.read none :: (first.events ++ .phaseReport e.config .stalled true ::
        (second.events ++ [.phaseReport e.config .inProgress true])))
      ((e.lost.leftBy first).leftBy second)

/-- What a wait does once it stalls. -/
def overcome : Session Event (JobRun σ δ π) Frame := do
  reportPhase .stalled
  let frame ← recover
  reportPhase .inProgress
  pure frame

theorem awaits_of_stalls {e : JobRun σ δ π} {first : Retry.Outcome σ Frame} (h : e.Stalls first) :
    let t := overcome.run { e with stream := e.lost.leftBy first }
    Awaits e t.ending (.read none :: (first.events ++ t.events)) t.world.stream := by
  have hstalled := run_reportPhase .stalled { e with stream := e.lost.leftBy first }
  rcases hreport : publishPhase e.config .stalled e.publisher with ⟨error | ⟨⟩, p⟩
  · simp only [hreport] at hstalled
    rw [overcome, Session.run_bind_failed hstalled]
    exact .unreported h hreport
  · simp only [hreport] at hstalled
    rw [overcome, Session.run_bind_value hstalled]
    generalize hsecond : secondWindow e.config (e.lost.leftBy first) = second
    have hrecover := run_recover_eq { e with stream := e.lost.leftBy first, publisher := p }
    simp only [hsecond] at hrecover
    cases hframe : second.result with
    | none =>
      have hawaits := Awaits.unrecovered h hreport hsecond hframe
      simp only [hframe, unrecovered] at hrecover hawaits
      cases htimeout : e.config.stallTimeout with
      | none =>
        simp only [htimeout] at hrecover hawaits
        rw [Session.run_bind_waiting hrecover]
        exact hawaits
      | some timeout =>
        simp only [htimeout] at hrecover hawaits
        rw [Session.run_bind_failed hrecover]
        exact hawaits
    | some frame =>
      simp only [hframe] at hrecover
      rw [Session.run_bind_value hrecover]
      have hback := run_reportPhase .inProgress
        { e with stream := (e.lost.leftBy first).leftBy second, publisher := p }
      rcases hanswer : publishPhase e.config .inProgress p with ⟨error | ⟨⟩, p'⟩
      · simp only [hanswer] at hback
        rw [Session.run_bind_failed hback]
        exact .unannounced h hreport hsecond hframe hanswer
      · simp only [hanswer] at hback
        rw [Session.run_bind_value hback]
        exact .recovered h hreport hsecond hframe hanswer

/-- There is no other way to wait for a frame. -/
theorem awaits_awaitFrame (e : JobRun σ δ π) :
    Awaits e (awaitFrame.run e).ending (awaitFrame.run e).events
      (awaitFrame.run e).world.stream := by
  have hplain : (onStream LiveStream.read).run e =
      ⟨.value (VideoSource.nextPicture e.stream.now e.stream.source).value,
        [.read (VideoSource.nextPicture e.stream.now e.stream.source).value],
        { e with stream := e.lost }⟩ := rfl
  cases hread : (VideoSource.nextPicture e.stream.now e.stream.source).value with
  | some frame =>
    rw [hread] at hplain
    rw [awaitFrame, Session.run_bind_value hplain]
    exact .read hread
  | none =>
    rw [hread] at hplain
    rw [awaitFrame, Session.run_bind_value hplain]
    simp only []
    rw [Session.run_bind_value (Session.run_world _)]
    -- the rest of the wait depends on the first window by its outcome only
    generalize hfirst : firstWindow e.config e.lost = first
    have hwindow : (onStream (LiveStream.reconnectFor e.config.stallAlertTicks)).run
        { e with stream := e.lost } =
          ⟨.value first.result, first.events, { e with stream := e.lost.leftBy first }⟩ := by
      rw [← hfirst]
      rfl
    rw [Session.run_bind_value hwindow]
    cases hframe : first.result with
    | some frame =>
      have hawaits := Awaits.reconnected hread hfirst hframe
      simpa using hawaits
    | none => exact awaits_of_stalls ⟨hread, hfirst, hframe⟩

end JobRun

end LiveDetection
