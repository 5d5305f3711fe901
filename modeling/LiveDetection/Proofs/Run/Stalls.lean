import LiveDetection.Proofs.Run.Parts
import LiveDetection.Proofs.Run.Shortened

/-!
# Stalls with a timeout

After it has reported a stall, a run with a stall timeout reconnects for what is left of it. Every
attempt begins within that time. Either one of them brings the stream back, or the time is over
between two attempts, and then the run has failed without a further event.
-/

namespace LiveDetection

/-! ## Attempts before a deadline -/

namespace Retry

variable {σ α : Type}

/-- Attempts without a value, from a time and a state on. Each comes after a sleep that does not
reach beyond the deadline. -/
inductive Tries (attempt : Nat → σ → Attempt σ α) (deadline : Nat) :
    Nat → σ → List Event → Nat → σ → Prop
  | done (now : Nat) (state : σ) : Tries attempt deadline now state [] now state
  | failed {now d later : Nat} {state last : σ} {events : List Event} (hpos : 0 < d)
      (htime : now + d ≤ deadline) (hnone : (attempt (now + d) state).result = none)
      (h : Tries attempt deadline (now + d + (attempt (now + d) state).cost)
        (attempt (now + d) state).state events later last) :
    Tries attempt deadline now state (.slept d :: (attempt (now + d) state).events ++ events)
      later last

/-- How a bounded loop ends: the deadline has passed after some attempts without a value, or an
attempt after them that began in time brought one. -/
inductive Ends (attempt : Nat → σ → Attempt σ α) (deadline now : Nat) (state : σ) :
    Outcome σ α → Prop
  | expired {tried : List Event} {later : Nat} {last : σ}
      (htries : Tries attempt deadline now state tried later last) (hover : deadline ≤ later) :
    Ends attempt deadline now state ⟨none, tried, later, last⟩
  | succeeded {tried : List Event} {later : Nat} {last : σ}
      (htries : Tries attempt deadline now state tried later last) {d : Nat} (hpos : 0 < d)
      (htime : later + d ≤ deadline) {value : α}
      (hvalue : (attempt (later + d) last).result = some value) :
    Ends attempt deadline now state
      ⟨some value, tried ++ .slept d :: (attempt (later + d) last).events,
        later + d + (attempt (later + d) last).cost, (attempt (later + d) last).state⟩

/-- One more attempt without a value in front of a loop. -/
theorem Ends.after {attempt : Nat → σ → Attempt σ α} {deadline now d : Nat} {state : σ}
    {o : Outcome σ α} (hpos : 0 < d) (htime : now + d ≤ deadline)
    (hnone : (attempt (now + d) state).result = none)
    (h : Ends attempt deadline (now + d + (attempt (now + d) state).cost)
      (attempt (now + d) state).state o) :
    Ends attempt deadline now state (o.after (.slept d :: (attempt (now + d) state).events)) := by
  cases h with
  | expired htries hover => exact .expired (.failed hpos htime hnone htries) hover
  | succeeded htries hpos' htime' hvalue =>
    have hends := Ends.succeeded (.failed hpos htime hnone htries) hpos' htime' hvalue
    rwa [List.append_assoc] at hends

variable [Resolution]

theorem ends_within (attempt : Nat → σ → Attempt σ α) {deadline : Nat} {b : Backoff}
    (hb : b.deadline = some deadline) (now : Nat) (state : σ) :
    Ends attempt deadline now state (within attempt deadline b hb now state) := by
  fun_induction within attempt deadline b hb now state with
  | case1 b hb now state hpause =>
    refine .expired (.done now state) ?_
    simp only [Backoff.pause?, hb] at hpause
    split at hpause
    · omega
    · cases hpause
  | case2 b hb now state d hpause a later value hvalue =>
    obtain ⟨hpos, htime⟩ := Backoff.pause?_bounds hb hpause
    exact .succeeded (.done now state) hpos htime hvalue
  | case3 b hb now state d hpause a later hnone ih =>
    obtain ⟨hpos, htime⟩ := Backoff.pause?_bounds hb hpause
    exact .after hpos htime hnone ih

end Retry

/-! ## The stream at a point of a run -/

namespace LiveStream

variable {σ : Type} [VideoSource σ]

/-- The stream after one event: its source answers the calls, and sleeps take their time. -/
def after (s : LiveStream σ) : Event → LiveStream σ
  | .opened uri _ =>
    let reply := VideoSource.openAt uri s.now s.source
    { s with source := reply.source, now := s.now + reply.cost }
  | .read _ =>
    let reply := VideoSource.nextPicture s.now s.source
    { s with source := reply.source, now := s.now + reply.cost }
  | .closed =>
    let reply := VideoSource.close s.now s.source
    { s with source := reply.source, now := s.now + reply.cost }
  | .slept duration => { s with now := s.now + duration }
  | _ => s

/-- The stream after some events. -/
def replay (s : LiveStream σ) (events : List Event) : LiveStream σ := events.foldl after s

theorem replay_append (s : LiveStream σ) (front back : List Event) :
    s.replay (front ++ back) = (s.replay front).replay back :=
  List.foldl_append

theorem replay_reopen (uri : String) (now : Nat) (source : σ) :
    (⟨source, uri, now⟩ : LiveStream σ).replay (reopen uri now source).events =
      ⟨(reopen uri now source).state, uri, now + (reopen uri now source).cost⟩ := by
  simp only [reopen]
  split
  · simp only [replay, List.foldl_cons, List.foldl_nil, after, Nat.add_assoc]
  · simp only [replay, List.foldl_cons, List.foldl_nil, after, Nat.add_assoc]

theorem replay_attempt (uri : String) (now d : Nat) (source : σ) :
    (⟨source, uri, now⟩ : LiveStream σ).replay (.slept d :: (reopen uri (now + d) source).events) =
      ⟨(reopen uri (now + d) source).state, uri,
        now + d + (reopen uri (now + d) source).cost⟩ :=
  replay_reopen uri (now + d) source

/-- The stream that a reconnection leaves behind. -/
def leftBy (s : LiveStream σ) (o : Retry.Outcome σ Frame) : LiveStream σ := ⟨o.state, s.uri, o.now⟩

theorem replay_of_turns {uri : String} {now : Nat} {source : σ} {o : Retry.Outcome σ Frame}
    (h : Retry.Turns (reopen uri) now source o) :
    (⟨source, uri, now⟩ : LiveStream σ).replay o.events = ⟨o.state, uri, o.now⟩ := by
  induction h with
  | ended => rfl
  | @found now d source => exact replay_attempt uri now d source
  | @failed now d source o _ _ ih =>
    rw [Retry.Outcome.after, replay_append, replay_attempt]
    exact ih

end LiveStream

/-! ## Sessions that keep to the stall timeout -/

/-- When the patience with a stall that was reported at some time is over. -/
def JobConfig.stallDeadline [Resolution] (c : JobConfig) (timeout : UInt64) (now : Nat) : Nat :=
  now + (millis timeout.toNat - c.stallAlertTicks)

/-- The event is no report of a stall that goes out. -/
def Event.Unstalled (e : Event) : Prop := ∀ c : JobConfig, e ≠ .phaseReport c .stalled true

theorem unstalled_of_sentOf {events : List Event} (h : sentOf events = []) :
    ∀ e ∈ events, e.Unstalled := by
  rintro _ he c rfl
  have hsent := List.filterMap_eq_nil_iff.mp h _ he
  cases hsent

namespace JobRun

variable [Resolution] {σ δ π α β : Type} [VideoSource σ]

/-- How a stall ends after it was reported on a stream: the stream comes back in time, or the run
has failed at the end of the stall timeout and nothing has happened since. -/
inductive StallEnds (c : JobConfig) (stream : LiveStream σ) (timeout : UInt64)
    (after : List Event) : Ending α → Prop
  | gaveUp {later : Nat} {last : σ}
    (h : Retry.Ends (LiveStream.reopen stream.uri) (c.stallDeadline timeout stream.now) stream.now
      stream.source ⟨none, after, later, last⟩) :
    StallEnds c stream timeout after (.failed (stallError stream.uri timeout))
  | recovered {ending : Ending α} {o : Retry.Outcome σ Frame} {rest : List Event}
    (h : Retry.Ends (LiveStream.reopen stream.uri) (c.stallDeadline timeout stream.now) stream.now
      stream.source o)
    (hframe : o.result.isSome) (hafter : after = o.events ++ rest) :
    StallEnds c stream timeout after ending

/-- What a session has left behind keeps to the stall timeout. -/
structure Heeded (e : JobRun σ δ π) (t : Trace Event (JobRun σ δ π) α) : Prop where
  config_eq : t.world.config = e.config
  stream_eq : t.world.stream = e.stream.replay t.events
  stalls : ∀ timeout ∈ e.config.stallTimeout, ∀ before after,
    t.events = before ++ .phaseReport e.config .stalled true :: after →
      StallEnds e.config (e.stream.replay before) timeout after t.ending

/-- A session keeps to the stall timeout. -/
def Heeds (p : Session Event (JobRun σ δ π) α) : Prop := ∀ e, Heeded e (p.run e)

theorem Heeded.quiet {e : JobRun σ δ π} {t : Trace Event (JobRun σ δ π) α}
    (hconfig : t.world.config = e.config) (hstream : t.world.stream = e.stream.replay t.events)
    (h : ∀ x ∈ t.events, x.Unstalled) : Heeded e t where
  config_eq := hconfig
  stream_eq := hstream
  stalls timeout _ before after hevents :=
    absurd rfl (h (.phaseReport e.config .stalled true) (by simp [hevents]) e.config)

/-- Where a session has ended without a value, a sequence ends as it has. -/
theorem Heeded.cast {e : JobRun σ δ π} {ending : Ending β} {ending' : Ending α}
    {events : List Event} {w : JobRun σ δ π} (h : Heeded e ⟨ending, events, w⟩)
    (hfailed : ∀ error, ending = .failed error → ending' = .failed error) :
    Heeded e ⟨ending', events, w⟩ where
  config_eq := h.config_eq
  stream_eq := h.stream_eq
  stalls timeout htimeout before after hevents := by
    have hends : StallEnds e.config (e.stream.replay before) timeout after ending :=
      h.stalls timeout htimeout before after hevents
    cases hends with
    | gaveUp hends =>
      have hending : ending' = _ := hfailed _ rfl
      exact hending ▸ .gaveUp hends
    | recovered hends hframe hafter => exact .recovered hends hframe hafter

namespace Heeds

theorem pure (a : α) : Heeds (Pure.pure a : Session Event (JobRun σ δ π) α) :=
  fun _ => .quiet rfl rfl (by simp)

theorem fail (error : RunError) : Heeds (Session.fail error : Session Event (JobRun σ δ π) α) :=
  fun _ => .quiet rfl rfl (by simp)

theorem update {change : JobRun σ δ π → JobRun σ δ π}
    (h : ∀ e, (change e).config = e.config ∧ (change e).stream = e.stream) :
    Heeds (Session.update change) :=
  fun e => .quiet (h e).1 (h e).2 (by simp)

/-- A sequence keeps to the stall timeout if its parts do: where the first part gives up, the
second does not begin. -/
theorem bind {p : Session Event (JobRun σ δ π) β} {f : β → Session Event (JobRun σ δ π) α}
    (hp : Heeds p) (hf : ∀ b, Heeds (f b)) : Heeds (p >>= f) := by
  intro e
  have hfirst := hp e
  rcases hrun : p.run e with ⟨ending, events, w⟩
  rw [hrun] at hfirst
  cases ending with
  | value b =>
    have hsecond := hf b w
    have hconfig : w.config = e.config := hfirst.config_eq
    have hstream : w.stream = e.stream.replay events := hfirst.stream_eq
    rw [Session.run_bind_value hrun]
    refine ⟨hsecond.config_eq.trans hconfig, ?_, fun timeout htimeout before after hevents => ?_⟩
    · rw [LiveStream.replay_append, ← hstream]
      exact hsecond.stream_eq
    · rcases append_eq_append_cons hevents with ⟨rest, hfront, hafter⟩ | ⟨front, rfl, hback⟩
      · -- the first part has a value, so the stream has come back there
        cases hfirst.stalls timeout htimeout before rest hfront with
        | recovered hends hframe hrest =>
          rw [hrest, List.append_assoc] at hafter
          exact .recovered hends hframe hafter
      · rw [← hconfig] at htimeout hback ⊢
        rw [LiveStream.replay_append, ← hstream]
        exact hsecond.stalls timeout htimeout front after hback
  | failed error =>
    rw [Session.run_bind_failed hrun]
    exact hfirst.cast fun _ h => by cases h; rfl
  | waiting =>
    rw [Session.run_bind_waiting hrun]
    exact hfirst.cast nofun

end Heeds

/-- Looking at the world is no event. -/
theorem heeds_world : Heeds (Session.world : Session Event (JobRun σ δ π) _) :=
  fun _ => .quiet rfl rfl (by simp)

/-! ## Everything but the source -/

section

variable [Publisher π] {c : JobConfig} {queue queue' : String}

omit [Resolution] in
/-- A report of another kind is none of a stall. -/
theorem unstalled_of_describes {kind : ReportKind} {m : Message} (h : kind.Describes c (queue, m))
    (hkind : kind ≠ .status .stalled) (accepted : Bool) :
    (Event.published queue' m accepted).Unstalled := by
  intro c' heq
  injection heq with _ hm
  have hstalled :=
    ReportKind.ofMessage?_of_describes (ReportKind.describes_phaseMessage c' .stalled)
  rw [← hm, ReportKind.ofMessage?_of_describes h] at hstalled
  exact hkind (Option.some.inj hstalled)

theorem heeds_send {ρ : Type} [Wire ρ] {report : ρ} (c : JobConfig) (kind : ReportKind)
    (hkind : kind ≠ .status .stalled)
    (h : ∀ m, Wire.toMessage report = .ok m → kind.Describes c (queue, m)) :
    Heeds (send queue' report : Session Event (JobRun σ δ π) Unit) := by
  intro e
  cases hm : Wire.toMessage report with
  | error error =>
    rw [run_send_error hm]
    exact .quiet rfl rfl (by simp)
  | ok m =>
    rw [run_send hm]
    refine .quiet rfl rfl fun x hx => ?_
    rw [List.mem_singleton.mp hx]
    exact unstalled_of_describes (h m hm) hkind _

theorem heeds_reportPhase {phase : RunPhase} (h : phase ≠ .stalled) :
    Heeds (reportPhase phase : Session Event (JobRun σ δ π) Unit) :=
  .bind heeds_world fun e => heeds_send e.config (.status phase) (by simpa using h)
    fun _ hm => ⟨rfl, hm⟩

theorem heeds_alert {alert : ActivityAlert} (hjob : alert.job = c.job) :
    Heeds (send queue alert : Session Event (JobRun σ δ π) Unit) :=
  heeds_send c .alert (by simp) fun _ hm => ⟨rfl, alert, hjob, hm⟩

theorem heeds_summary {summary : SegmentSummary} (hjob : summary.job = c.job) :
    Heeds (send queue summary : Session Event (JobRun σ δ π) Unit) :=
  heeds_send c .summary (by simp) fun _ hm => ⟨rfl, summary, hjob, hm⟩

end

theorem heeds_notePoll (status : ControlStatus) :
    Heeds (notePoll status : Session Event (JobRun σ δ π) Unit) :=
  fun _ => .quiet rfl rfl (unstalled_of_sentOf rfl)

theorem heeds_detect [Detector δ] (job : VideoJob) :
    Heeds (detect job : Session Event (JobRun σ δ π) (List Track)) := by
  refine .bind (fun _ => .quiet rfl rfl (unstalled_of_sentOf rfl)) ?_
  rintro (error | tracks)
  · exact .pure []
  · exact .pure tracks

theorem heeds_finish [Detector δ] : Heeds (finish : Session Event (JobRun σ δ π) Unit) :=
  fun _ => .quiet rfl rfl (unstalled_of_sentOf rfl)

/-! ## The source -/

theorem heeds_read : Heeds (onStream LiveStream.read : Session Event (JobRun σ δ π) _) :=
  fun _ => .quiet rfl rfl (unstalled_of_sentOf rfl)

theorem heeds_reconnectFor (duration : Nat) :
    Heeds (onStream (LiveStream.reconnectFor duration) : Session Event (JobRun σ δ π) _) :=
  fun _ => .quiet rfl (LiveStream.replay_of_turns (Retry.turns_within _ rfl _ _)).symm
    (unstalled_of_sentOf (sentOf_of_turns (Retry.turns_within _ rfl _ _)))

theorem heeds_reconnect :
    Heeds (onStream LiveStream.reconnect : Session Event (JobRun σ δ π) _) :=
  fun _ => .quiet rfl (LiveStream.replay_of_turns (Retry.turns_following _ _ _ _ _)).symm
    (unstalled_of_sentOf (sentOf_of_turns (Retry.turns_following _ _ _ _ _)))

theorem heeds_recover : Heeds (recover : Session Event (JobRun σ δ π) Frame) := by
  refine .bind heeds_world fun e => ?_
  cases e.config.stallTimeout with
  | none => exact heeds_reconnect
  | some timeout =>
    refine .bind (heeds_reconnectFor _) ?_
    rintro (_ | frame)
    · exact .fail _
    · exact .pure frame

/-- The reconnection after a stall was reported. -/
def secondWindow (c : JobConfig) (s : LiveStream σ) : Retry.Outcome σ Frame :=
  match c.stallTimeout with
  | none =>
    Retry.following (LiveStream.reopen s.uri) (VideoSource.patience s.source) .endless s.now
      s.source
  | some timeout =>
    Retry.withinDuration (LiveStream.reopen s.uri) (millis timeout.toNat - c.stallAlertTicks)
      s.now s.source

/-- How a run ends whose second window has brought no frame. -/
def unrecovered (c : JobConfig) (uri : String) : Ending Frame :=
  match c.stallTimeout with
  | none => .waiting
  | some timeout => .failed (stallError uri timeout)

/-- A recovery is the second window, and it gives up if that brings no frame. -/
theorem run_recover_eq (e : JobRun σ δ π) :
    (recover : Session Event (JobRun σ δ π) Frame).run e =
      ⟨match (secondWindow e.config e.stream).result with
        | some frame => .value frame
        | none => unrecovered e.config e.stream.uri,
        (secondWindow e.config e.stream).events,
        { e with stream := e.stream.leftBy (secondWindow e.config e.stream) }⟩ := by
  rw [recover, Session.run_bind_value (Session.run_world e)]
  cases htimeout : e.config.stallTimeout with
  | none =>
    simp only [secondWindow, unrecovered, htimeout]
    rfl
  | some timeout =>
    have hwindow : (onStream (LiveStream.reconnectFor
        (millis timeout.toNat - e.config.stallAlertTicks))).run e =
          ⟨.value (secondWindow e.config e.stream).result,
            (secondWindow e.config e.stream).events,
            { e with stream := e.stream.leftBy (secondWindow e.config e.stream) }⟩ := by
      simp only [secondWindow, htimeout]
      rfl
    simp only [Session.run_bind_value hwindow, unrecovered, htimeout]
    cases (secondWindow e.config e.stream).result with
    | some frame => simp
    | none => simp

/-- With a stall timeout, a recovery is a bounded loop, and without a frame it fails. -/
theorem run_recover (e : JobRun σ δ π) {timeout : UInt64}
    (htimeout : e.config.stallTimeout = some timeout) :
    ∃ o, Retry.Ends (LiveStream.reopen e.stream.uri) (e.config.stallDeadline timeout e.stream.now)
        e.stream.now e.stream.source o ∧
      (recover : Session Event (JobRun σ δ π) Frame).run e =
        ⟨match o.result with
          | some frame => .value frame
          | none => .failed (stallError e.stream.uri timeout), o.events,
          { e with stream := ⟨o.state, e.stream.uri, o.now⟩ }⟩ := by
  refine ⟨secondWindow e.config e.stream, ?_, ?_⟩
  · simp only [secondWindow, htimeout]
    exact Retry.ends_within _ rfl _ _
  · rw [run_recover_eq, unrecovered, htimeout]
    rfl

/-- With a stall timeout, the stream comes back in time or the run has failed. -/
theorem stallEnds_recover (e : JobRun σ δ π) {timeout : UInt64}
    (htimeout : e.config.stallTimeout = some timeout) (g : Frame → Session Event (JobRun σ δ π) α) :
    StallEnds e.config e.stream timeout ((recover >>= g).run e).events
      ((recover >>= g).run e).ending := by
  obtain ⟨⟨result, events, later, last⟩, hends, hrun⟩ := run_recover e htimeout
  cases result with
  | none =>
    rw [Session.run_bind_failed hrun]
    exact .gaveUp hends
  | some frame =>
    rw [Session.run_bind_value hrun]
    exact .recovered hends rfl rfl

variable [Publisher π]

/-- A stall that is reported is followed by the recovery at once. -/
theorem heeds_stall {g : Frame → Session Event (JobRun σ δ π) α} (hg : ∀ frame, Heeds (g frame)) :
    Heeds (do reportPhase .stalled; let frame ← recover; g frame) := by
  intro e
  have hreport : (reportPhase .stalled).run e = _ := run_send (JobStatus.toMessage_eq _) e
  cases hanswer : (Publisher.publish e.config.transport.jobStatusQueue
      ⟨(⟨e.config.job, RunPhase.stalled.label⟩ : JobStatus).headerProperties, none⟩
      e.publisher).1 with
  | error error =>
    rw [hanswer] at hreport
    rw [Session.run_bind_failed hreport]
    exact .quiet rfl rfl (unstalled_of_sentOf rfl)
  | ok =>
    rw [hanswer] at hreport
    rw [Session.run_bind_value hreport]
    let w : JobRun σ δ π := { e with publisher := (Publisher.publish
      e.config.transport.jobStatusQueue
      ⟨(⟨e.config.job, RunPhase.stalled.label⟩ : JobStatus).headerProperties, none⟩
      e.publisher).2 }
    have hrest : Heeded w ((recover >>= g).run w) := heeds_recover.bind hg w
    refine ⟨hrest.config_eq, hrest.stream_eq, fun timeout htimeout before after hevents => ?_⟩
    rcases append_eq_append_cons hevents with ⟨rest, hreported, hafter⟩ | ⟨front, rfl, hback⟩
    · obtain ⟨rfl, rfl⟩ : before = [] ∧ rest = [] := by
        rcases List.append_eq_singleton_iff.mp hreported.symm with ⟨hbefore, h⟩ | ⟨-, h⟩
        · exact ⟨hbefore, (List.cons.inj h).2⟩
        · cases h
      rw [hafter]
      exact stallEnds_recover w htimeout g
    · exact hrest.stalls timeout htimeout front after hback

theorem heeds_awaitFrame : Heeds (awaitFrame : Session Event (JobRun σ δ π) Frame) := by
  refine .bind heeds_read ?_
  rintro (_ | frame)
  · refine .bind heeds_world fun e => ?_
    refine .bind (heeds_reconnectFor _) ?_
    rintro (_ | frame)
    · exact heeds_stall fun frame => .bind (heeds_reportPhase (by simp)) fun _ => .pure frame
    · exact .pure frame
  · exact .pure frame

variable [Detector δ]

theorem pervasive_heeds :
    Pervasive fun _ (p : Session Event (JobRun σ δ π) _) => Heeds p where
  pure := .pure
  fail := .fail
  bind := .bind
  world := heeds_world
  update := .update
  reportPhase := heeds_reportPhase
  alert := heeds_alert
  summary := heeds_summary
  notePoll := heeds_notePoll
  detect := heeds_detect
  finish := heeds_finish
  awaitFrame := heeds_awaitFrame

end JobRun

end LiveDetection
