import LiveDetection.Proofs.Run.Grammar
import LiveDetection.Proofs.Run.Refinement

/-!
# Runs that are asked to quit earlier

A run that is asked to quit after an earlier segment does the same up to the summary of that
segment. So what a run knows when it reports a segment, its time above all, is what such a
shorter run knows at its end.
-/

namespace LiveDetection

/-! ## Summaries among messages -/

section

variable {front back before after : List (String × Message)} {posting : String × Message}

theorem summaryCount_append (front back : List (String × Message)) :
    summaryCount (front ++ back) = summaryCount front + summaryCount back :=
  List.countP_append

theorem summaryCount_cons (hbody : posting.2.body.isSome) (back : List (String × Message)) :
    summaryCount (posting :: back) = summaryCount back + 1 :=
  List.countP_cons_of_pos hbody

theorem summaryCount_ne_zero (hbody : posting.2.body.isSome) :
    summaryCount (before ++ posting :: after) ≠ 0 := by
  rw [summaryCount_append, summaryCount_cons hbody]
  omega

/-- A summary is not among messages of which none is one, so it is behind them. -/
theorem exists_behind (h : front ++ back = before ++ posting :: after)
    (hfront : summaryCount front = 0) (hbody : posting.2.body.isSome) :
    ∃ rest, before = front ++ rest ∧ back = rest ++ posting :: after := by
  rcases append_eq_append_cons h with ⟨rest, rfl, -⟩ | hbehind
  · exact absurd hfront (summaryCount_ne_zero hbody)
  · exact hbehind

/-- It is in front of such messages likewise. -/
theorem exists_ahead (h : front ++ back = before ++ posting :: after)
    (hback : summaryCount back = 0) (hbody : posting.2.body.isSome) :
    ∃ rest, front = before ++ posting :: rest := by
  rcases append_eq_append_cons h with ⟨rest, hahead, -⟩ | ⟨rest, -, rfl⟩
  · exact ⟨rest, hahead⟩
  · exact absurd hback (summaryCount_ne_zero hbody)

end

namespace JobRun

variable {σ δ π α β : Type}

/-! ## Sessions without a summary -/

/-- No summary goes out in the session. -/
def Unsummed (p : Session Event (JobRun σ δ π) α) : Prop :=
  ∀ e, summaryCount (sentOf (p.run e).events) = 0

namespace Unsummed

theorem act {step : JobRun σ δ π → α × List Event × JobRun σ δ π}
    (h : ∀ e, sentOf (step e).2.1 = []) : Unsummed (Session.act step) := by
  intro e
  rw [Session.run_act, h]
  rfl

theorem bind {p : Session Event (JobRun σ δ π) β} {f : β → Session Event (JobRun σ δ π) α}
    (hp : Unsummed p) (hf : ∀ b, Unsummed (f b)) : Unsummed (p >>= f) := by
  intro e
  have hfirst := hp e
  rcases hrun : p.run e with ⟨ending, events, world⟩
  rw [hrun] at hfirst
  cases ending with
  | value b =>
    rw [Session.run_bind_value hrun, sentOf_append, summaryCount_append, hfirst, hf b world]
  | failed error => rwa [Session.run_bind_failed hrun]
  | waiting => rwa [Session.run_bind_waiting hrun]

/-- If nothing behind a session is a summary, then one that goes out does so in the session. -/
theorem exists_first {p : Session Event (JobRun σ δ π) β}
    {f : β → Session Event (JobRun σ δ π) α} (hf : ∀ b, Unsummed (f b)) {e : JobRun σ δ π}
    {before after : List (String × Message)} {posting : String × Message}
    (hsent : sentOf ((p >>= f).run e).events = before ++ posting :: after)
    (hbody : posting.2.body.isSome) :
    ∃ rest, sentOf (p.run e).events = before ++ posting :: rest := by
  rcases hrun : p.run e with ⟨ending, events, world⟩
  cases ending with
  | value b =>
    rw [Session.run_bind_value hrun, sentOf_append] at hsent
    exact exists_ahead hsent (hf b world) hbody
  | failed error =>
    rw [Session.run_bind_failed hrun] at hsent
    exact ⟨after, hsent⟩
  | waiting =>
    rw [Session.run_bind_waiting hrun] at hsent
    exact ⟨after, hsent⟩

/-- If a session has no summary, then one that goes out does so behind it. -/
theorem exists_second {p : Session Event (JobRun σ δ π) β}
    {f : β → Session Event (JobRun σ δ π) α} (hp : Unsummed p) {e : JobRun σ δ π}
    {before after : List (String × Message)} {posting : String × Message}
    (hsent : sentOf ((p >>= f).run e).events = before ++ posting :: after)
    (hbody : posting.2.body.isSome) :
    ∃ b events world later, p.run e = ⟨.value b, events, world⟩ ∧
      before = sentOf events ++ later ∧ summaryCount before = summaryCount later ∧
      sentOf ((f b).run world).events = later ++ posting :: after := by
  have hfirst := hp e
  rcases hrun : p.run e with ⟨ending, events, world⟩
  rw [hrun] at hfirst
  cases ending with
  | value b =>
    rw [Session.run_bind_value hrun, sentOf_append] at hsent
    obtain ⟨later, rfl, hlater⟩ := exists_behind hsent hfirst hbody
    refine ⟨b, events, world, later, rfl, rfl, ?_, hlater⟩
    rw [summaryCount_append, hfirst, Nat.zero_add]
  | failed error =>
    rw [Session.run_bind_failed hrun] at hsent
    exact absurd (hsent ▸ hfirst) (summaryCount_ne_zero hbody)
  | waiting =>
    rw [Session.run_bind_waiting hrun] at hsent
    exact absurd (hsent ▸ hfirst) (summaryCount_ne_zero hbody)

end Unsummed

section

variable [Publisher π]

/-- A report without a body is no summary. -/
theorem unsummed_send {ρ : Type} [Wire ρ] {queue : String} {report : ρ} {m : Message}
    (hm : Wire.toMessage report = .ok m) (hbody : m.body = none) :
    Unsummed (send queue report : Session Event (JobRun σ δ π) Unit) := by
  intro e
  rw [run_send hm]
  cases (Publisher.publish queue m e.publisher).1 with
  | ok => simp [sentOf, Event.sent?, summaryCount, Except.isOk, Except.toBool, hbody]
  | error => rfl

theorem unsummed_reportPhase (phase : RunPhase) :
    Unsummed (reportPhase phase : Session Event (JobRun σ δ π) Unit) :=
  .bind (fun _ => rfl) fun _ => unsummed_send (JobStatus.toMessage_eq _) rfl

end

section

variable [VideoSource σ]

theorem sentOf_reopen (uri : String) (now : Nat) (source : σ) :
    sentOf (LiveStream.reopen uri now source).events = [] := by
  simp only [LiveStream.reopen]
  split <;> rfl

/-- Nothing goes out while a stream is reconnected. -/
theorem sentOf_of_turns {uri : String} {now : Nat} {source : σ} {o : Retry.Outcome σ Frame}
    (h : Retry.Turns (LiveStream.reopen uri) now source o) : sentOf o.events = [] := by
  induction h with
  | ended => rfl
  | @found now d source => exact sentOf_reopen uri (now + d) source
  | @failed now d source o _ _ ih =>
    have hattempt : sentOf (.slept d :: (LiveStream.reopen uri (now + d) source).events) = [] :=
      sentOf_reopen uri (now + d) source
    simp only [Retry.Outcome.after, sentOf_append, hattempt, ih, List.append_nil]

variable [Resolution]

theorem unsummed_reconnectFor (duration : Nat) :
    Unsummed (onStream (LiveStream.reconnectFor duration) : Session Event (JobRun σ δ π) _) := by
  intro e
  exact congrArg summaryCount (sentOf_of_turns (Retry.turns_within _ rfl _ _))

theorem unsummed_recover : Unsummed (recover : Session Event (JobRun σ δ π) Frame) := by
  refine .bind (fun _ => rfl) fun e => ?_
  cases e.config.stallTimeout with
  | none =>
    intro later
    exact congrArg summaryCount (sentOf_of_turns (Retry.turns_following _ _ _ _ _))
  | some timeout =>
    refine .bind (unsummed_reconnectFor _) ?_
    rintro (_ | frame) _ <;> rfl

variable [Publisher π]

theorem unsummed_awaitFrame : Unsummed (awaitFrame : Session Event (JobRun σ δ π) Frame) := by
  refine .bind (fun _ => rfl) ?_
  rintro (_ | frame)
  · refine .bind (fun _ => rfl) fun e => ?_
    refine .bind (unsummed_reconnectFor _) ?_
    rintro (_ | frame)
    · refine .bind (unsummed_reportPhase .stalled) fun _ => ?_
      refine .bind unsummed_recover fun frame => ?_
      exact .bind (unsummed_reportPhase .inProgress) fun _ _ => rfl
    · exact fun _ => rfl
  · exact fun _ => rfl

theorem unsummed_awaitFrames (n : Nat) :
    Unsummed (awaitFrames n : Session Event (JobRun σ δ π) (List Frame)) := by
  induction n with
  | zero => exact fun _ => rfl
  | succ n ih => exact .bind unsummed_awaitFrame fun _ => .bind ih fun _ _ => rfl

end

theorem unsummed_detect [Detector δ] (job : VideoJob) :
    Unsummed (detect job : Session Event (JobRun σ δ π) (List Track)) := by
  refine .bind (.act fun _ => rfl) ?_
  rintro (error | tracks) <;> exact fun _ => rfl

/-! ## Segments -/

/-- A summary goes out at the end of the session, if it yields a value, and nowhere else. -/
def EndsSummed (p : Session Event (JobRun σ δ π) Unit) : Prop :=
  ∀ e, match (p.run e).ending with
  | .value () => ∃ front posting, sentOf (p.run e).events = front ++ [posting] ∧
    summaryCount front = 0 ∧ posting.2.body.isSome
  | _ => summaryCount (sentOf (p.run e).events) = 0

namespace EndsSummed

theorem fail (error : RunError) :
    EndsSummed (Session.fail error : Session Event (JobRun σ δ π) Unit) :=
  fun _ => rfl

theorem bind {p : Session Event (JobRun σ δ π) β} {f : β → Session Event (JobRun σ δ π) Unit}
    (hp : Unsummed p) (hf : ∀ b, EndsSummed (f b)) : EndsSummed (p >>= f) := by
  intro e
  have hfirst := hp e
  rcases hrun : p.run e with ⟨ending, events, world⟩
  rw [hrun] at hfirst
  cases ending with
  | value b =>
    have hsecond := hf b world
    rw [Session.run_bind_value hrun]
    rcases hrest : (f b).run world with ⟨ending, more, last⟩
    rw [hrest] at hsecond
    simp only [sentOf_append]
    cases ending with
    | value =>
      obtain ⟨front, posting, hmore, hfront, hbody⟩ := hsecond
      refine ⟨sentOf events ++ front, posting, by rw [hmore, List.append_assoc], ?_, hbody⟩
      rw [summaryCount_append, hfirst, hfront]
    | failed error => exact (summaryCount_append _ _).trans (by rw [hfirst, hsecond])
    | waiting => exact (summaryCount_append _ _).trans (by rw [hfirst, hsecond])
  | failed error =>
    rw [Session.run_bind_failed hrun]
    exact hfirst
  | waiting =>
    rw [Session.run_bind_waiting hrun]
    exact hfirst

end EndsSummed

section

variable [Publisher π]

theorem endsSummed_summary (queue : String) (summary : SegmentSummary)
    (change : JobRun σ δ π → JobRun σ δ π) :
    EndsSummed (do send queue summary; .update change : Session Event (JobRun σ δ π) Unit) := by
  intro e
  cases hm : Wire.toMessage summary with
  | error error =>
    rw [Session.run_bind_failed (run_send_error hm e)]
    rfl
  | ok m =>
    have hsend := @run_send σ δ π _ _ _ queue _ m hm e
    obtain ⟨body, -, rfl⟩ := SegmentSummary.toMessage_eq_ok.mp hm
    cases hanswer :
        (Publisher.publish queue ⟨summary.headerProperties, some body⟩ e.publisher).1 with
    | ok =>
      rw [hanswer] at hsend
      rw [Session.run_bind_value hsend]
      exact ⟨[], _, rfl, rfl, rfl⟩
    | error error =>
      rw [hanswer] at hsend
      rw [Session.run_bind_failed hsend]
      rfl

variable [Resolution] [VideoSource σ] [Detector δ]

theorem endsSummed_runSegment :
    EndsSummed (runSegment : Session Event (JobRun σ δ π) Unit) := by
  refine .bind (fun _ => rfl) fun e => ?_
  simp only []
  cases stopFrame? e.nextFrame e.config.segmentSize with
  | none => exact .fail _
  | some stop =>
    refine .bind (unsummed_awaitFrames _) fun frames => ?_
    refine .bind (fun _ => rfl) fun _ => ?_
    refine .bind (unsummed_detect _) fun found => ?_
    cases firstActivity? (repairTracks found e.nextFrame stop) with
    | none => exact endsSummed_summary _ _ _
    | some frameIndex =>
      refine .bind (fun _ => rfl) fun now => ?_
      exact .bind (unsummed_send (ActivityAlert.toMessage_eq _) rfl) fun _ =>
        endsSummed_summary _ _ _

end

/-! ## Runs -/

section

variable {e : JobRun σ δ π} {before after : List (String × Message)} {posting : String × Message}

/-- A summary that goes out in a session that ends with one, or behind it. -/
theorem EndsSummed.cases {p rest : Session Event (JobRun σ δ π) Unit} (hp : EndsSummed p)
    (hsent : sentOf ((p >>= fun _ => rest).run e).events = before ++ posting :: after)
    (hbody : posting.2.body.isSome) :
    ∃ events world, p.run e = ⟨.value (), events, world⟩ ∧
      (summaryCount before = 0 ∧ sentOf events = before ++ [posting] ∨
        ∃ later, summaryCount before = summaryCount later + 1 ∧
          before = sentOf events ++ later ∧
          sentOf (rest.run world).events = later ++ posting :: after) := by
  have hends := hp e
  rcases hrun : p.run e with ⟨ending, events, world⟩
  rw [hrun] at hends
  cases ending with
  | value =>
    obtain ⟨front, last, hevents, hfront, hlast⟩ := hends
    have hevents : sentOf events = front ++ [last] := hevents
    refine ⟨events, world, rfl, ?_⟩
    rw [Session.run_bind_value hrun, sentOf_append, hevents, List.append_assoc] at hsent
    obtain ⟨later, rfl, hlater⟩ := exists_behind hsent hfront hbody
    cases later with
    | nil =>
      obtain ⟨rfl, -⟩ := List.cons.inj hlater
      exact .inl ⟨by simpa using hfront, by simpa using hevents⟩
    | cons first later =>
      obtain ⟨rfl, hrest⟩ := List.cons.inj hlater
      refine .inr ⟨later, ?_, by rw [hevents, List.append_assoc]; rfl, hrest⟩
      rw [summaryCount_append, hfront, summaryCount_cons hlast, Nat.zero_add]
  | failed error =>
    rw [Session.run_bind_failed hrun] at hsent
    exact absurd (hsent ▸ hends) (summaryCount_ne_zero hbody)
  | waiting =>
    rw [Session.run_bind_waiting hrun] at hsent
    exact absurd (hsent ▸ hends) (summaryCount_ne_zero hbody)

variable [Detector δ] [Publisher π]

/-- The report of the stop and the end of the component leave the stream, and with it the time,
as they are. -/
theorem stream_run_stop (e : JobRun σ δ π) :
    ((do reportPhase .stopped; finish : Session Event (JobRun σ δ π) Unit).run e).world.stream =
      e.stream := by
  have hreport : (reportPhase .stopped).run e = _ := run_send (JobStatus.toMessage_eq _) e
  cases hanswer : (Publisher.publish e.config.transport.jobStatusQueue
      ⟨(⟨e.config.job, RunPhase.stopped.label⟩ : JobStatus).headerProperties, none⟩
      e.publisher).1 with
  | ok =>
    rw [hanswer] at hreport
    rw [Session.run_bind_value hreport]
    rfl
  | error error =>
    rw [hanswer] at hreport
    rw [Session.run_bind_failed hreport]

variable [Resolution] [VideoSource σ]

/-- A run that is asked to quit after its first segment. -/
theorem runSegments_nil {events : List Event} {world : JobRun σ δ π}
    (h : runSegment.run e = ⟨.value (), events, world⟩) :
    ∃ events', (runSegments []).run e = ⟨.value (), events', world⟩ ∧
      sentOf events' = sentOf events := by
  refine ⟨events ++ [.polled .quit], Session.run_bind_value h, ?_⟩
  rw [sentOf_append]
  exact List.append_nil _

/-- The run of one segment and of those after it. -/
theorem run_nextSegment {events : List Event} {world : JobRun σ δ π}
    (h : runSegment.run e = ⟨.value (), events, world⟩) (polls : List ControlStatus) :
    (runSegments (.proceed :: polls)).run e =
      { (runSegments polls).run world with
        events := events ++ .polled .proceed :: ((runSegments polls).run world).events } := by
  rw [runSegments, Session.run_bind_value h]
  rfl

/-- A run of segments that is asked to quit after one of them ends there, after the same
messages. -/
theorem runSegments_take (polls : List ControlStatus)
    (hsent : sentOf ((runSegments polls).run e).events = before ++ posting :: after)
    (hbody : posting.2.body.isSome) :
    ∃ events world,
      (runSegments (polls.take (summaryCount before))).run e = ⟨.value (), events, world⟩ ∧
      sentOf events = before ++ [posting] := by
  induction polls generalizing e before with
  | nil =>
    obtain ⟨events, world, hrun, ⟨-, hevents⟩ | ⟨later, -, -, hrest⟩⟩ :=
      endsSummed_runSegment.cases hsent hbody
    · obtain ⟨events', hshort, hsame⟩ := runSegments_nil hrun
      rw [List.take_nil]
      exact ⟨events', world, hshort, hsame.trans hevents⟩
    · cases later <;> cases hrest
  | cons status polls ih =>
    obtain ⟨events, world, hrun, ⟨hcount, hevents⟩ | ⟨later, hcount, rfl, hrest⟩⟩ :=
      endsSummed_runSegment.cases hsent hbody
    · obtain ⟨events', hshort, hsame⟩ := runSegments_nil hrun
      exact ⟨events', world, hcount ▸ hshort, hsame.trans hevents⟩
    · cases status with
      | proceed =>
        have hlater : sentOf ((runSegments polls).run world).events = later ++ posting :: after :=
          hrest
        obtain ⟨more, last, hshort, hmore⟩ := ih hlater
        rw [hcount, List.take_succ_cons, run_nextSegment hrun, hshort]
        refine ⟨_, last, rfl, ?_⟩
        rw [sentOf_append, List.append_assoc, ← hmore]
        rfl
      | quit => cases later <;> cases hrest
      | fatal => cases later <;> cases hrest

/-- A run that is asked to quit after a segment takes the segments as the longer run does, and
its time stands still from there on. -/
theorem run_take (polls : List ControlStatus)
    (hsent : sentOf ((run polls).run e).events = before ++ posting :: after)
    (hbody : posting.2.body.isSome) :
    ∃ events world,
      (do reportPhase .inProgress; runSegments (polls.take (summaryCount before))).run e =
        ⟨.value (), events, world⟩ ∧
      sentOf events = before ++ [posting] ∧
      ((run (polls.take (summaryCount before))).run e).world.stream = world.stream := by
  rw [run, ← Session.bind_assoc] at hsent
  obtain ⟨after', hsegments⟩ := Unsummed.exists_first
    (fun _ => .bind (unsummed_reportPhase .stopped) fun _ => .act fun _ => rfl) hsent hbody
  obtain ⟨_, events, world, later, hreport, rfl, hcount, hlater⟩ :=
    (unsummed_reportPhase .inProgress).exists_second hsegments hbody
  obtain ⟨more, last, hshort, hmore⟩ := runSegments_take polls hlater hbody
  rw [← hcount] at hshort
  have hrun : (do
      reportPhase .inProgress
      runSegments (polls.take (summaryCount (sentOf events ++ later)))).run e =
        ⟨.value (), events ++ more, last⟩ := by
    rw [Session.run_bind_value hreport, hshort]
  refine ⟨_, last, hrun, by rw [sentOf_append, hmore, List.append_assoc], ?_⟩
  rw [run, ← Session.bind_assoc, Session.run_bind_value hrun]
  exact stream_run_stop last

end

end JobRun

end LiveDetection
