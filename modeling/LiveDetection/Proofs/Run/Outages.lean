import LiveDetection.Proofs.Run.Failures
import LiveDetection.Proofs.Run.Waiting

/-!
# Outages on the clock

From the moment at which a plain read has failed, a run keeps to two limits: the stall alert
threshold, at which it reports the stall, and the stall timeout, at which it gives up. The windows
between them are never too short, and they are as long as they should be if the calls to the source
take no time, whichever of the limits is the longer one.
-/

namespace LiveDetection

namespace LiveStream

variable {σ : Type} [VideoSource σ]

/-! ## Events that last -/

/-- How long the source takes for the call of an event. -/
def callTime (s : LiveStream σ) : Event → Nat
  | .opened uri _ => (VideoSource.openAt uri s.now s.source).cost
  | .read _ => (VideoSource.nextPicture s.now s.source).cost
  | .closed => (VideoSource.close s.now s.source).cost
  | _ => 0

/-- The calls of the events take no time. -/
def Instant (s : LiveStream σ) : List Event → Prop
  | [] => True
  | e :: rest => s.callTime e = 0 ∧ (s.after e).Instant rest

/-- The events last for a duration or longer, and no longer if the calls take no time. -/
structure Lasts (s : LiveStream σ) (events : List Event) (duration : Nat) : Prop where
  le_now : s.now + duration ≤ (s.replay events).now
  now_eq : s.Instant events → (s.replay events).now = s.now + duration

variable {s : LiveStream σ} {front back : List Event} {d d' : Nat}

theorem now_after (s : LiveStream σ) (e : Event) :
    (s.after e).now = s.now + ((sleepsOf [e]).sum + s.callTime e) := by
  cases e <;> simp [after, callTime, sleepsOf, List.filterMap_cons, Event.sleep?]

theorem instant_append :
    s.Instant (front ++ back) ↔ s.Instant front ∧ (s.replay front).Instant back := by
  induction front generalizing s with
  | nil => simp [Instant, replay]
  | cons e front ih =>
    simp only [List.cons_append, Instant, ih, and_assoc]
    rfl

/-- Without the calls, what takes time is the sleeps. -/
theorem Instant.now_replay {events : List Event} (h : s.Instant events) :
    (s.replay events).now = s.now + (sleepsOf events).sum := by
  induction events generalizing s with
  | nil => simp [replay, sleepsOf]
  | cons e rest ih =>
    obtain ⟨hcall, hrest⟩ := h
    have hsleeps : sleepsOf (e :: rest) = sleepsOf [e] ++ sleepsOf rest := sleepsOf_append [e] rest
    have hafter : (s.after e).now = s.now + (sleepsOf [e]).sum := by rw [now_after, hcall]; rfl
    have hreplay : (s.replay (e :: rest)).now = (s.after e).now + (sleepsOf rest).sum := ih hrest
    rw [hreplay, hafter, hsleeps, List.sum_append, Nat.add_assoc]

theorem Lasts.append (h : s.Lasts front d) (h' : (s.replay front).Lasts back d') :
    s.Lasts (front ++ back) (d + d') where
  le_now := by
    have hfront := h.le_now
    have hback := h'.le_now
    rw [replay_append]
    omega
  now_eq := by
    intro hinstant
    obtain ⟨hfront, hback⟩ := instant_append.mp hinstant
    rw [replay_append, h'.now_eq hback, h.now_eq hfront, Nat.add_assoc]

/-- A report takes no time. -/
theorem lasts_phaseReport (s : LiveStream σ) (c : JobConfig) (phase : RunPhase) (accepted : Bool) :
    s.Lasts [.phaseReport c phase accepted] 0 :=
  ⟨Nat.le_refl _, fun _ => rfl⟩

/-! ## Windows -/

section

variable [Resolution]

theorem sum_sleepsOf_withinDuration_le (uri : String) (budget now : Nat) (source : σ) :
    (sleepsOf (Retry.withinDuration (reopen uri) budget now source).events).sum ≤ budget := by
  obtain ⟨n, houtcome, hmade⟩ := Retry.exists_withinDuration_eq (reopen uri) budget now source
  rw [houtcome, sleepsOf_upTo rfl]
  exact (Retry.Course.spends_upTo (fun _ => rfl) hmade).sum_sleep_le

/-- A window without a frame lasts for as long as it is given. -/
theorem lasts_withinDuration {budget : Nat}
    (h : (Retry.withinDuration (reopen s.uri) budget s.now s.source).result = none) :
    s.Lasts (Retry.withinDuration (reopen s.uri) budget s.now s.source).events budget := by
  have hreplay : s.replay (Retry.withinDuration (reopen s.uri) budget s.now s.source).events =
      s.leftBy (Retry.withinDuration (reopen s.uri) budget s.now s.source) :=
    replay_of_turns (Retry.turns_within _ rfl _ _)
  have hover : s.now + budget ≤
      (s.replay (Retry.withinDuration (reopen s.uri) budget s.now s.source).events).now := by
    rw [hreplay]
    exact Retry.le_now_withinDuration h
  refine ⟨hover, fun hinstant => ?_⟩
  -- the sleeps alone cannot be longer than the window
  have hsleeps := sum_sleepsOf_withinDuration_le s.uri budget s.now s.source
  rw [hinstant.now_replay] at hover ⊢
  omega

end

/-- A reconnection reads the frame that it yields, and no other. -/
theorem framesOf_of_turns {uri : String} {now : Nat} {source : σ} {o : Retry.Outcome σ Frame}
    (h : Retry.Turns (reopen uri) now source o) : framesOf o.events = o.result.toList := by
  have hattempt : ∀ d time (source : σ),
      framesOf (.slept d :: (reopen uri time source).events) =
        (reopen uri time source).result.toList := by
    intro d time source
    rcases events_reopen uri time source with hevents | ⟨hevents, hnone⟩
    · rw [hevents]
      cases (reopen uri time source).result <;> rfl
    · rw [hevents, hnone]
      rfl
  induction h with
  | ended => rfl
  | @found now d source frame hvalue => rw [hattempt, hvalue]
  | @failed now d source o hnone _ ih =>
    rw [Retry.Outcome.after, framesOf_append, hattempt, hnone, ih]
    rfl

/-- The frame is read last. -/
theorem exists_concat_of_turns {uri : String} {now : Nat} {source : σ} {o : Retry.Outcome σ Frame}
    {frame : Frame} (h : Retry.Turns (reopen uri) now source o) (hframe : o.result = some frame) :
    ∃ tried, o.events = tried ++ [.read (some frame)] := by
  induction h with
  | ended => cases hframe
  | @found now d source frame hvalue =>
    obtain rfl := Option.some.inj hframe
    rcases events_reopen uri (now + d) source with hevents | ⟨-, hnone⟩
    · rw [hevents, hvalue]
      exact ⟨[.slept d, .closed, .opened uri true], rfl⟩
    · rw [hvalue] at hnone
      cases hnone
  | @failed now d source o _ _ ih =>
    obtain ⟨tried, htried⟩ := ih hframe
    refine ⟨.slept d :: (reopen uri (now + d) source).events ++ tried, ?_⟩
    rw [Retry.Outcome.after, htried, List.append_assoc]

end LiveStream

/-! ## Reports -/

theorem phaseReport_notMem {events : List Event} (h : apartOf events = []) (c : JobConfig)
    (phase : RunPhase) (accepted : Bool) : .phaseReport c phase accepted ∉ events := by
  intro hmem
  have hapart := List.filter_eq_nil_iff.mp h _ hmem
  exact hapart rfl

theorem phaseReport_ne (c : JobConfig) {phase phase' : RunPhase} (h : phase ≠ phase')
    (accepted accepted' : Bool) :
    Event.phaseReport c phase accepted ≠ .phaseReport c phase' accepted' := by
  intro heq
  injection heq with _ hmessage
  have hkind := ReportKind.ofMessage?_of_describes (ReportKind.describes_phaseMessage c phase)
  rw [hmessage,
    ReportKind.ofMessage?_of_describes (ReportKind.describes_phaseMessage c phase')] at hkind
  simp only [Option.some.injEq, ReportKind.status.injEq] at hkind
  exact h hkind.symm

/-- Between quiet events and events without a report of a stall, there is one such report. -/
theorem after_eq_of_append {c : JobConfig} {front back before after : List Event}
    {accepted accepted' : Bool} (hfront : apartOf front = [])
    (hback : ∀ again, .phaseReport c .stalled again ∉ back)
    (h : front ++ .phaseReport c .stalled accepted :: back =
      before ++ .phaseReport c .stalled accepted' :: after) : after = back := by
  rcases append_eq_append_cons h with ⟨rest, hfront', -⟩ | ⟨rest, -, hrest⟩
  · have hmem : .phaseReport c .stalled accepted' ∈ front := by simp [hfront']
    exact absurd hmem (phaseReport_notMem hfront c .stalled accepted')
  · cases rest with
    | nil => exact (List.cons.inj hrest).2.symm
    | cons first rest =>
      have hmem : .phaseReport c .stalled accepted' ∈ back := by simp [(List.cons.inj hrest).2]
      exact absurd hmem (hback accepted')

namespace JobRun

variable {σ δ π : Type} [VideoSource σ]

section

variable [Resolution]

/-- An attempt of the first window brings a frame. -/
def ReconnectsEarly (e : JobRun σ δ π) : Prop :=
  e.firstCourse.Succeeds e.config.stallAlertTicks

theorem reconnectsEarly_iff {e : JobRun σ δ π} :
    e.ReconnectsEarly ↔ (firstWindow e.config e.lost).result.isSome :=
  Retry.isSome_withinDuration_iff.symm

/-- What a run does about an outage of its stream, by what happens after the plain read. -/
structure Escalates (e : JobRun σ δ π) (rest : List Event) (ending : Ending Frame) : Prop where
  /-- If an attempt of the first window brings a frame, the run has it and reports nothing. -/
  quiet : e.ReconnectsEarly → (∃ frame, ending = .value frame) ∧ apartOf rest = []
  /-- If none does, the stall is reported, once, and when the threshold is over. -/
  stalled : ¬ e.ReconnectsEarly → ∃ before accepted after,
    rest = before ++ .phaseReport e.config .stalled accepted :: after ∧ apartOf before = [] ∧
      (∀ again, .phaseReport e.config .stalled again ∉ after) ∧
      e.lost.Lasts before e.config.stallAlertTicks
  /-- The run gives up only if it has a stall timeout, and when both limits are over. -/
  gaveUp : ∀ error, ending = .failed error → error.exitCode = .streamStalled →
    ∃ timeout ∈ e.config.stallTimeoutTicks,
      e.lost.Lasts rest (max e.config.stallAlertTicks timeout)
  /-- A frame that comes after the report of the stall is read last, and then reported, once. -/
  recovered : ∀ before accepted after frame,
    rest = before ++ .phaseReport e.config .stalled accepted :: after →
    .read (some frame) ∈ after ∨ ending = .value frame →
      ∃ tried announced, apartOf tried = [] ∧
        after = tried ++ [.read (some frame), .phaseReport e.config .inProgress announced] ∧
        (announced = true → ending = .value frame)

namespace Stalls

variable {e : JobRun σ δ π} {first : Retry.Outcome σ Frame} (h : e.Stalls first)

include h

theorem turns : Retry.Turns (LiveStream.reopen e.lost.uri) e.lost.now e.lost.source first :=
  turns_of_firstWindow h.first_eq

theorem not_reconnectsEarly : ¬ e.ReconnectsEarly := by
  rw [reconnectsEarly_iff, h.first_eq, h.result_eq]
  simp

theorem lasts : e.lost.Lasts first.events e.config.stallAlertTicks := by
  have hnone := h.result_eq
  rw [← h.first_eq] at hnone ⊢
  exact LiveStream.lasts_withinDuration hnone

theorem replay_eq : e.lost.replay first.events = e.lost.leftBy first :=
  LiveStream.replay_of_turns h.turns

/-- A stall is reported once, so what is left to say is about the events after its report. -/
theorem escalates {ending : Ending Frame} {accepted : Bool} {back : List Event}
    (hback : ∀ again, .phaseReport e.config .stalled again ∉ back)
    (hgave : ∀ error, ending = .failed error → error.exitCode = .streamStalled →
      ∃ timeout ∈ e.config.stallTimeoutTicks,
        e.lost.Lasts (first.events ++ .phaseReport e.config .stalled accepted :: back)
          (max e.config.stallAlertTicks timeout))
    (hframe : ∀ frame, .read (some frame) ∈ back ∨ ending = .value frame →
      ∃ tried announced, apartOf tried = [] ∧
        back = tried ++ [.read (some frame), .phaseReport e.config .inProgress announced] ∧
        (announced = true → ending = .value frame)) :
    Escalates e (first.events ++ .phaseReport e.config .stalled accepted :: back) ending where
  quiet hearly := absurd hearly h.not_reconnectsEarly
  stalled _ :=
    ⟨first.events, accepted, back, rfl, LiveStream.apartOf_of_turns h.turns, hback, h.lasts⟩
  gaveUp := hgave
  recovered before accepted' after frame hrest hcame := by
    have hafter := after_eq_of_append (LiveStream.apartOf_of_turns h.turns) hback hrest
    rw [hafter] at hcame ⊢
    exact hframe frame hcame

/-- The second window makes up the difference between the two limits. -/
theorem lasts_unrecovered {second : Retry.Outcome σ Frame} {timeout : UInt64} {accepted : Bool}
    (htimeout : e.config.stallTimeout = some timeout)
    (hsecond : secondWindow e.config (e.lost.leftBy first) = second)
    (hnone : second.result = none) :
    e.lost.Lasts (first.events ++ .phaseReport e.config .stalled accepted :: second.events)
      (max e.config.stallAlertTicks (millis timeout.toNat)) := by
  have hwindow : (e.lost.leftBy first).Lasts second.events
      (millis timeout.toNat - e.config.stallAlertTicks) := by
    subst hsecond
    simp only [secondWindow, htimeout] at hnone ⊢
    exact LiveStream.lasts_withinDuration hnone
  have hlater : (e.lost.replay first.events).Lasts
      (.phaseReport e.config .stalled accepted :: second.events)
      (millis timeout.toNat - e.config.stallAlertTicks) := by
    rw [h.replay_eq]
    have hreport := (LiveStream.lasts_phaseReport (e.lost.leftBy first) e.config .stalled
      accepted).append hwindow
    rwa [Nat.zero_add] at hreport
  have hlimit : e.config.stallAlertTicks + (millis timeout.toNat - e.config.stallAlertTicks) =
      max e.config.stallAlertTicks (millis timeout.toNat) := by
    omega
  rw [← hlimit]
  exact h.lasts.append hlater

/-- The second window brings a frame, and whatever becomes of the report of that, it is the last. -/
theorem escalates_reconnected {second : Retry.Outcome σ Frame} {frame : Frame} {announced : Bool}
    {ending : Ending Frame} (hsecond : secondWindow e.config (e.lost.leftBy first) = second)
    (hframe : second.result = some frame) (hvalue : announced = true → ending = .value frame)
    (hending : ∀ other, ending = .value other → other = frame)
    (hfailed : ∀ error, ending = .failed error → error.exitCode ≠ .streamStalled) :
    Escalates e (first.events ++ .phaseReport e.config .stalled true ::
      (second.events ++ [.phaseReport e.config .inProgress announced])) ending := by
  have hturns := turns_of_secondWindow hsecond
  have hquiet : apartOf second.events = [] := LiveStream.apartOf_of_turns hturns
  obtain ⟨tried, htried⟩ := LiveStream.exists_concat_of_turns hturns hframe
  apply h.escalates
  · intro again hmem
    rcases List.mem_append.mp hmem with hmem | hmem
    · exact phaseReport_notMem hquiet e.config .stalled again hmem
    · exact phaseReport_ne e.config (by simp) again announced (List.mem_singleton.mp hmem)
  · intro error herror hcode
    exact absurd hcode (hfailed error herror)
  · intro other hcame
    obtain rfl : other = frame := by
      rcases hcame with hread | hother
      · have hmem : other ∈
            framesOf (second.events ++ [.phaseReport e.config .inProgress announced]) :=
          List.mem_filterMap.mpr ⟨_, hread, rfl⟩
        rw [framesOf_append, LiveStream.framesOf_of_turns hturns, hframe] at hmem
        simpa [framesOf, Event.phaseReport, Event.frame?] using hmem
      · exact hending other hother
    refine ⟨tried, announced, ?_, by simp [htried], hvalue⟩
    have hapart : apartOf tried ++ apartOf [.read (some other)] = [] := by
      rw [← apartOf_append, ← htried, hquiet]
    exact (List.append_eq_nil_iff.mp hapart).1

end Stalls

variable [Publisher π]

theorem escalates_of_awaits {e : JobRun σ δ π} {ending : Ending Frame} {events : List Event}
    {stream : LiveStream σ} (h : Awaits e ending events stream)
    (hlost : (VideoSource.nextPicture e.stream.now e.stream.source).value = none) :
    ∃ rest, events = .read none :: rest ∧ Escalates e rest ending := by
  cases h with
  | read hread =>
    rw [hread] at hlost
    cases hlost
  | @reconnected first frame hread hfirst hframe =>
    have hquiet : apartOf first.events = [] :=
      LiveStream.apartOf_of_turns (turns_of_firstWindow hfirst)
    have hearly : e.ReconnectsEarly := by
      rw [reconnectsEarly_iff, hfirst, hframe]
      rfl
    refine ⟨first.events, rfl, fun _ => ⟨⟨frame, rfl⟩, hquiet⟩, absurd hearly, ?_, ?_⟩
    · intro error herror
      cases herror
    · intro before accepted after frame hrest
      have hmem : .phaseReport e.config .stalled accepted ∈ first.events := by simp [hrest]
      exact absurd hmem (phaseReport_notMem hquiet e.config .stalled accepted)
  | @unreported first p error h hreport =>
    refine ⟨_, rfl, h.escalates (by simp) ?_ ?_⟩
    · intro error' herror hcode
      cases herror
      cases hcode
    · intro frame hcame
      rcases hcame with hread | hvalue
      · cases hread
      · cases hvalue
  | @unrecovered first second p h hreport hsecond hframe =>
    have hturns := turns_of_secondWindow hsecond
    have hquiet : apartOf second.events = [] := LiveStream.apartOf_of_turns hturns
    refine ⟨_, rfl, h.escalates (phaseReport_notMem hquiet e.config .stalled) ?_ ?_⟩
    · intro error herror hcode
      cases htimeout : e.config.stallTimeout with
      | none => simp [unrecovered, htimeout] at herror
      | some timeout =>
        refine ⟨millis timeout.toNat, ?_, h.lasts_unrecovered htimeout hsecond hframe⟩
        simp [JobConfig.stallTimeoutTicks, htimeout]
    · intro frame hcame
      rcases hcame with hread | hvalue
      · have hmem : frame ∈ framesOf second.events := List.mem_filterMap.mpr ⟨_, hread, rfl⟩
        rw [LiveStream.framesOf_of_turns hturns, hframe] at hmem
        cases hmem
      · simp only [unrecovered] at hvalue
        split at hvalue <;> cases hvalue
  | @unannounced first second p p' frame error h hreport hsecond hframe hanswer =>
    refine ⟨_, rfl, h.escalates_reconnected hsecond hframe (by simp) ?_ ?_⟩
    · intro other hother
      cases hother
    · intro error' herror hcode
      cases herror
      cases hcode
  | @recovered first second p p' frame h hreport hsecond hframe hanswer =>
    refine ⟨_, rfl, h.escalates_reconnected hsecond hframe (fun _ => rfl) ?_ ?_⟩
    · intro other hother
      cases hother
      rfl
    · intro error herror
      cases herror

/-- Whatever the source and the publisher do, a run that has failed to read a frame reports the
stall and gives up in its own time. -/
theorem escalates_awaitFrame {e : JobRun σ δ π}
    (hlost : (VideoSource.nextPicture e.stream.now e.stream.source).value = none) :
    ∃ rest, (awaitFrame.run e).events = .read none :: rest ∧
      (awaitFrame.run e).world.stream = e.lost.replay rest ∧
      Escalates e rest (awaitFrame.run e).ending := by
  obtain ⟨rest, hrest, hescalates⟩ := escalates_of_awaits (awaits_awaitFrame e) hlost
  refine ⟨rest, hrest, ?_, hescalates⟩
  have hstream := (heeds_awaitFrame e).stream_eq
  rw [hrest] at hstream
  exact hstream

end

/-- Calls that take no time leave the stalled run with its stall timeout of three milliseconds. -/
theorem escalates_stalledRun :
    (VideoSource.nextPicture stalledRun.stream.now stalledRun.stream.source).value = none ∧
      (∃ rest, (awaitFrame.run stalledRun).events = .read none :: rest ∧
        (awaitFrame.run stalledRun).world.stream = stalledRun.lost.replay rest ∧
        Escalates stalledRun rest (awaitFrame.run stalledRun).ending) ∧
      (awaitFrame.run stalledRun).world.stream.now = 3000 := by
  have hlost : (VideoSource.nextPicture stalledRun.stream.now stalledRun.stream.source).value =
      none := rfl
  exact ⟨hlost, escalates_awaitFrame hlost, by decide +kernel⟩

end JobRun

end LiveDetection
