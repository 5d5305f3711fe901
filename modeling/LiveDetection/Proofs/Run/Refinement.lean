import LiveDetection.Proofs.Retry.Turns
import LiveDetection.Proofs.Run.Standing

/-!
# Runs take steps

Whatever the source, the component, the publisher and the control channel do, the events of
a run are steps from the standing in which it begins, and the run ends as the standing that
they lead to allows. Every function of a run has one statement of this form, and the
statements are put together as the functions are.
-/

namespace LiveDetection.JobRun

variable {σ δ π α β : Type}

/-- What can be known of a run in a stage. -/
def standing (e : JobRun σ δ π) (stage : Stage) : Standing where
  config := e.config
  uri := e.stream.uri
  epochMillis := e.epochMillis
  segmentNumber := e.segmentNumber
  nextFrame := e.nextFrame
  now := e.stream.now
  stage := stage

/-- The run has come as far as the standing says. -/
structure StandsAt (e : JobRun σ δ π) (s : Standing) : Prop where
  config : e.config = s.config
  uri : e.stream.uri = s.uri
  epochMillis : e.epochMillis = s.epochMillis
  segmentNumber : e.segmentNumber = s.segmentNumber
  nextFrame : e.nextFrame = s.nextFrame
  now : e.stream.now = s.now

theorem standsAt_standing (e : JobRun σ δ π) (stage : Stage) : e.StandsAt (e.standing stage) :=
  ⟨rfl, rfl, rfl, rfl, rfl, rfl⟩

/-- A run whose stream has followed a retry loop. -/
theorem StandsAt.later {e : JobRun σ δ π} {s : Standing} (he : e.StandsAt s) (source : σ)
    (now : Nat) (stage : Stage) :
    StandsAt { e with stream := { e.stream with source := source, now := now } }
      (s.later now stage) :=
  ⟨he.config, he.uri, he.epochMillis, he.segmentNumber, he.nextFrame, rfl⟩

/-- From a standing, the events of a session are steps to one that allows its ending. -/
def Leads (s : Standing) (p : Session Event (JobRun σ δ π) α) (post : α → Standing → Prop) :
    Prop :=
  ∀ e : JobRun σ δ π, e.StandsAt s → ∃ t, Steps s (p.run e).events t ∧
    (p.run e).world.StandsAt t ∧
    match (p.run e).ending with
    | .value a => post a t
    | .failed error => MayFail t error
    | .waiting => MayWait t

namespace Leads

variable {s : Standing} {post : α → Standing → Prop}

theorem pure {a : α} (h : post a s) :
    Leads s (Pure.pure a : Session Event (JobRun σ δ π) α) post :=
  fun _ he => ⟨s, .refl, he, h⟩

theorem fail {error : RunError} (h : MayFail s error) :
    Leads s (Session.fail error : Session Event (JobRun σ δ π) α) post :=
  fun _ he => ⟨s, .refl, he, h⟩

theorem act {step : JobRun σ δ π → α × List Event × JobRun σ δ π}
    (h : ∀ e : JobRun σ δ π, e.StandsAt s →
      ∃ t, Steps s (step e).2.1 t ∧ (step e).2.2.StandsAt t ∧ post (step e).1 t) :
    Leads s (Session.act step) post :=
  h

/-- A sequence leads where its second part leads from wherever the first part ends. -/
theorem bind {p : Session Event (JobRun σ δ π) β} {f : β → Session Event (JobRun σ δ π) α}
    {mid : β → Standing → Prop} (hp : Leads s p mid)
    (hf : ∀ b t, mid b t → Leads t (f b) post) : Leads s (p >>= f) post := by
  intro e he
  obtain ⟨t, hsteps, hat, hend⟩ := hp e he
  rcases hrun : p.run e with ⟨ending, events, world⟩
  rw [hrun] at hsteps hat hend
  cases ending with
  | value b =>
    obtain ⟨u, hrest, hlast⟩ := hf b t hend world hat
    rw [Session.run_bind_value hrun]
    exact ⟨u, hsteps.trans hrest, hlast⟩
  | failed error =>
    rw [Session.run_bind_failed hrun]
    exact ⟨t, hsteps, hat, hend⟩
  | waiting =>
    rw [Session.run_bind_waiting hrun]
    exact ⟨t, hsteps, hat, hend⟩

/-- Looking at the world is no event. -/
theorem world {f : JobRun σ δ π → Session Event (JobRun σ δ π) α}
    (h : ∀ e : JobRun σ δ π, e.StandsAt s → Leads s (f e) post) :
    Leads s (Session.world >>= f) post := by
  intro e he
  rw [Session.run_bind_value (Session.run_world e)]
  exact h e he e he

theorem weaken {p : Session Event (JobRun σ δ π) α} {strong : α → Standing → Prop}
    (h : Leads s p strong) (hpost : ∀ a t, strong a t → post a t) : Leads s p post := by
  intro e he
  obtain ⟨t, hsteps, hat, hend⟩ := h e he
  refine ⟨t, hsteps, hat, ?_⟩
  cases hending : (p.run e).ending with
  | value a =>
    rw [hending] at hend
    exact hpost a t hend
  | failed error => simpa only [hending] using hend
  | waiting => simpa only [hending] using hend

end Leads

/-! ## Reconnecting -/

section Reconnecting

variable [VideoSource σ] {s : Standing} {next : Frame → Stage}

/-- The stage after a reconnection, which goes on if there is a frame. -/
def after (s : Standing) (next : Frame → Stage) (result : Option Frame) : Stage :=
  result.elim s.stage next

theorem step_retried (h : s.stage.Retries next) {e : Event} {now later : Nat}
    (he : e.Elapses now later) : Step (s.later now s.stage) e (s.later later s.stage) := by
  have hnow : (s.later now s.stage).stage.Retries next := h
  exact .retried hnow he

theorem step_reconnected (h : s.stage.Retries next) (frame : Frame) {now later : Nat}
    (hle : now ≤ later) :
    Step (s.later now s.stage) (.read (some frame)) (s.later later (next frame)) := by
  have hnow : (s.later now s.stage).stage.Retries next := h
  exact .reconnected hnow frame hle

theorem steps_reopen (h : s.stage.Retries next) (now : Nat) (source : σ) :
    Steps (s.later now s.stage) (LiveStream.reopen s.uri now source).events
      (s.later (now + (LiveStream.reopen s.uri now source).cost)
        (after s next (LiveStream.reopen s.uri now source).result)) := by
  let shut := VideoSource.close now source
  let opening := VideoSource.openAt s.uri (now + shut.cost) shut.source
  have hshut : Steps (s.later now s.stage) [.closed] (s.later (now + shut.cost) s.stage) :=
    .single (step_retried h (.closed (Nat.le_add_right _ _)))
  have hopened : Steps (s.later now s.stage) [.closed, .opened s.uri opening.value]
      (s.later (now + shut.cost + opening.cost) s.stage) :=
    hshut.step (step_retried h (.opened _ _ (Nat.le_add_right _ _)))
  by_cases hvalue : opening.value
  · let reply := VideoSource.nextPicture (now + shut.cost + opening.cost) opening.source
    rw [hvalue] at hopened
    have hreopen : LiveStream.reopen s.uri now source =
        ⟨reply.value, [.closed, .opened s.uri true, .read reply.value],
          shut.cost + opening.cost + reply.cost, reply.source⟩ := by
      simp only [LiveStream.reopen, shut, opening, reply] at hvalue ⊢
      rw [if_pos hvalue]
    have hnow : now + (shut.cost + opening.cost + reply.cost) =
        now + shut.cost + opening.cost + reply.cost := by omega
    rw [hreopen]
    simp only [hnow]
    cases reply.value with
    | none => exact hopened.step (step_retried h (.unread (Nat.le_add_right _ _)))
    | some frame => exact hopened.step (step_reconnected h frame (Nat.le_add_right _ _))
  · have hfalse : opening.value = false := by simpa using hvalue
    have hreopen : LiveStream.reopen s.uri now source =
        ⟨none, [.closed, .opened s.uri false], shut.cost + opening.cost, opening.source⟩ := by
      simp only [LiveStream.reopen, shut, opening] at hvalue ⊢
      rw [if_neg hvalue]
    rw [hreopen]
    rw [hfalse, Nat.add_assoc] at hopened
    exact hopened

/-- A sleep and an attempt. -/
theorem steps_attempt (h : s.stage.Retries next) (now duration : Nat) (source : σ) :
    Steps (s.later now s.stage)
      (.slept duration :: (LiveStream.reopen s.uri (now + duration) source).events)
      (s.later (now + duration + (LiveStream.reopen s.uri (now + duration) source).cost)
        (after s next (LiveStream.reopen s.uri (now + duration) source).result)) := by
  have hslept : Steps (s.later now s.stage) [.slept duration]
      (s.later (now + duration) s.stage) :=
    .single (step_retried h (.slept _ _))
  exact hslept.trans (steps_reopen h (now + duration) source)

/-- The outcome of a retry loop on the stream is one of steps. -/
def Follows (s : Standing) (next : Frame → Stage) (now : Nat) (o : Retry.Outcome σ Frame) : Prop :=
  Steps (s.later now s.stage) o.events (s.later o.now (after s next o.result))

theorem follows_of_turns (h : s.stage.Retries next) {now : Nat} {source : σ}
    {o : Retry.Outcome σ Frame} (ho : Retry.Turns (LiveStream.reopen s.uri) now source o) :
    Follows s next now o := by
  induction ho with
  | ended => exact .refl
  | @found now d source frame hvalue =>
    have hattempt := steps_attempt h now d source
    rw [hvalue] at hattempt
    exact hattempt
  | @failed now d source o hnone _ ih =>
    have hattempt := steps_attempt h now d source
    rw [hnone] at hattempt
    exact hattempt.trans ih

variable [Resolution]

theorem leads_reconnectFor (h : s.stage.Retries next) (duration : Nat) :
    Leads s (onStream (LiveStream.reconnectFor duration) : Session Event (JobRun σ δ π) _)
      fun result t => ∃ now, t = s.later now (after s next result) := by
  intro e he
  let o := Retry.withinDuration (LiveStream.reopen e.stream.uri) duration e.stream.now
    e.stream.source
  have hfollows : Follows s next s.now o := by
    simp only [o, he.uri, he.now]
    exact follows_of_turns h (Retry.turns_within _ rfl _ _)
  exact ⟨_, hfollows, he.later o.state o.now _, o.now, rfl⟩

theorem leads_reconnect {frames : List Frame} (h : s.stage = .stalled frames)
    (hpatient : s.config.stallTimeout = none) :
    Leads s (onStream LiveStream.reconnect : Session Event (JobRun σ δ π) _)
      fun frame t => ∃ now, t = s.later now (.recovered (frames ++ [frame])) := by
  intro e he
  let o := Retry.following (LiveStream.reopen e.stream.uri)
    (VideoSource.patience e.stream.source) .endless e.stream.now e.stream.source
  have hretries : s.stage.Retries fun frame => .recovered (frames ++ [frame]) := h ▸ .late frames
  have hfollows : Follows s (fun frame => .recovered (frames ++ [frame])) s.now o := by
    simp only [o, he.uri, he.now]
    exact follows_of_turns hretries (Retry.turns_following _ _ _ _ _)
  refine ⟨_, hfollows, he.later o.state o.now _, ?_⟩
  cases hresult : o.result with
  | some frame =>
    have hending : ((onStream LiveStream.reconnect).run e).ending = .value frame := by
      simp only [onStream, LiveStream.reconnect, Session.run_onPart, o, hresult]
    rw [hending]
    exact ⟨o.now, rfl⟩
  | none =>
    have hending : ((onStream LiveStream.reconnect).run e).ending = .waiting := by
      simp only [onStream, LiveStream.reconnect, Session.run_onPart, o, hresult]
    rw [hending]
    exact ⟨hpatient, frames, h⟩

end Reconnecting

/-! ## Reporting -/

section Reporting

variable [Publisher π] {s : Standing}

theorem run_send {ρ : Type} [Wire ρ] {queue : String} {report : ρ} {m : Message}
    (hm : Wire.toMessage report = .ok m) (e : JobRun σ δ π) :
    (send queue report).run e =
      ⟨match (Publisher.publish queue m e.publisher).1 with
        | .ok () => .value ()
        | .error error => .failed (publishError queue error.message),
        [.published queue m (Publisher.publish queue m e.publisher).1.isOk],
        { e with publisher := (Publisher.publish queue m e.publisher).2 }⟩ := by
  simp only [send, hm]
  rw [Session.run_bind_value (Session.run_act _ e)]
  cases (Publisher.publish queue m e.publisher).1 with
  | ok => rfl
  | error error => rfl

/-- A report that is no message fails without an event. -/
theorem run_send_error {ρ : Type} [Wire ρ] {queue : String} {report : ρ} {error : CodecError}
    (hm : Wire.toMessage report = .error error) (e : JobRun σ δ π) :
    (send queue report).run e = ⟨.failed (publishError queue error.message), [], e⟩ := by
  simp only [send, hm, Session.run_fail]

/-- A report goes on if its queue takes it, and the run ends if not. -/
theorem leads_send {ρ : Type} [Wire ρ] {queue : String} {report : ρ} {m : Message}
    (hm : Wire.toMessage report = .ok m) {next : Stage}
    (hstep : ∀ accepted, Step s (.published queue m accepted) (s.afterReport queue accepted next)) :
    Leads s (send queue report : Session Event (JobRun σ δ π) Unit) fun _ t => t = s.goTo next := by
  intro e he
  rw [run_send hm]
  refine ⟨_, .single (hstep _),
    ⟨he.config, he.uri, he.epochMillis, he.segmentNumber, he.nextFrame, he.now⟩, ?_⟩
  cases (Publisher.publish queue m e.publisher).1 with
  | ok => rfl
  | error error => exact .refused rfl error.message

theorem leads_reportPhase {phase : RunPhase} {next : Stage}
    (hstep : ∀ accepted, Step s (.phaseReport s.config phase accepted)
      (s.afterReport s.config.transport.jobStatusQueue accepted next)) :
    Leads s (reportPhase phase : Session Event (JobRun σ δ π) Unit) fun _ t => t = s.goTo next := by
  refine .world fun e he => ?_
  rw [he.config]
  exact leads_send (JobStatus.toMessage_eq _) hstep

/-- A summary that goes out ends its segment. -/
theorem leads_summary {tracks : List Track} (h : s.stage.Summarises tracks) :
    Leads s (do
        send s.config.transport.summaryReportQueue (s.summary tracks)
        .update fun e => { e with segmentNumber := e.segmentNumber + 1 } :
          Session Event (JobRun σ δ π) Unit)
      fun _ t => t.stage = .summarised := by
  intro e he
  cases hm : Wire.toMessage (s.summary tracks) with
  | error error =>
    rw [Session.run_bind_failed (run_send_error hm e)]
    exact ⟨s, .refl, he, .tooLarge h hm⟩
  | ok m =>
    have hsend := @run_send σ δ π _ _ _ s.config.transport.summaryReportQueue _ m hm e
    cases hanswer :
        (Publisher.publish s.config.transport.summaryReportQueue m e.publisher).1 with
    | ok =>
      rw [hanswer] at hsend
      rw [Session.run_bind_value hsend]
      refine ⟨_, .single (.summarised h hm), ?_, rfl⟩
      exact ⟨he.config, he.uri, he.epochMillis, congrArg (· + 1) he.segmentNumber, he.nextFrame,
        he.now⟩
    | error error =>
      rw [hanswer] at hsend
      rw [Session.run_bind_failed hsend]
      refine ⟨_, .single (.unsummarised h hm), ?_, .refused rfl error.message⟩
      exact ⟨he.config, he.uri, he.epochMillis, he.segmentNumber, he.nextFrame, he.now⟩

end Reporting

/-! ## Reading -/

section Reading

variable [VideoSource σ] {s : Standing} {frames : List Frame}

theorem leads_read (h : s.stage = .reading frames) (hroom : frames.length < s.config.segmentLength)
    (hfits : s.stopFrame?.isSome) :
    Leads s (onStream LiveStream.read : Session Event (JobRun σ δ π) _) fun result t =>
      ∃ now, t = s.later now
        (result.elim (.reconnecting frames) fun frame => .reading (frames ++ [frame])) := by
  intro e he
  let reply := VideoSource.nextPicture e.stream.now e.stream.source
  have hle : s.now ≤ e.stream.now + reply.cost := he.now ▸ Nat.le_add_right _ _
  have hstep : Step s (.read reply.value) (s.later (e.stream.now + reply.cost)
      (reply.value.elim (.reconnecting frames) fun frame => .reading (frames ++ [frame]))) := by
    cases reply.value with
    | none => exact .lost h hroom hfits hle
    | some frame => exact .read h hroom hfits frame hle
  exact ⟨_, .single hstep, he.later reply.source _ _, _, rfl⟩

variable [Resolution]

theorem leads_recover (h : s.stage = .stalled frames) :
    Leads s (recover : Session Event (JobRun σ δ π) Frame) fun frame t =>
      ∃ now, t = s.later now (.recovered (frames ++ [frame])) := by
  refine .world fun e he => ?_
  cases htimeout : e.config.stallTimeout with
  | none =>
    rw [he.config] at htimeout
    exact leads_reconnect h htimeout
  | some timeout =>
    have hretries : s.stage.Retries fun frame => .recovered (frames ++ [frame]) := h ▸ .late frames
    refine .bind (leads_reconnectFor hretries _) ?_
    rintro (_ | frame) _ ⟨now, rfl⟩
    · rw [he.config] at htimeout
      rw [he.uri]
      exact .fail (.gaveUp (s := s.later now s.stage) h htimeout)
    · exact .pure ⟨now, rfl⟩

variable [Publisher π]

/-- However a frame arrives, it is the next frame of the segment. -/
theorem leads_awaitFrame (h : s.stage = .reading frames)
    (hroom : frames.length < s.config.segmentLength) (hfits : s.stopFrame?.isSome) :
    Leads s (awaitFrame : Session Event (JobRun σ δ π) Frame) fun frame t =>
      ∃ now, t = s.later now (.reading (frames ++ [frame])) := by
  refine .bind (leads_read h hroom hfits) ?_
  rintro (_ | frame) _ ⟨lost, rfl⟩
  · refine .world fun e _ => ?_
    refine .bind (leads_reconnectFor (.early frames) _) ?_
    rintro (_ | frame) _ ⟨late, rfl⟩
    · refine .bind (leads_reportPhase (.stallReported rfl)) ?_
      rintro _ _ rfl
      refine .bind (leads_recover rfl) ?_
      rintro frame _ ⟨back, rfl⟩
      refine .bind (leads_reportPhase (.recoveryReported rfl)) ?_
      rintro _ _ rfl
      exact .pure ⟨back, rfl⟩
    · exact .pure ⟨late, rfl⟩
  · exact .pure ⟨lost, rfl⟩

theorem leads_awaitFrames (n : Nat) (h : s.stage = .reading frames)
    (hroom : frames.length + n = s.config.segmentLength) (hfits : s.stopFrame?.isSome) :
    Leads s (awaitFrames n : Session Event (JobRun σ δ π) (List Frame)) fun more t =>
      more.length = n ∧ ∃ now, t = s.later now (.reading (frames ++ more)) := by
  induction n generalizing s frames with
  | zero =>
    refine .pure ⟨rfl, s.now, ?_⟩
    rw [List.append_nil, ← h]
    rfl
  | succ n ih =>
    refine .bind (leads_awaitFrame h (by omega) hfits) ?_
    rintro frame _ ⟨now, rfl⟩
    have hlength : (frames ++ [frame]).length + n = s.config.segmentLength := by
      rw [List.length_append, List.length_singleton]
      omega
    refine .bind (ih rfl hlength hfits) ?_
    rintro more _ ⟨hmore, last, rfl⟩
    refine .pure ⟨congrArg (· + 1) hmore, last, ?_⟩
    rw [List.append_assoc]
    rfl

end Reading

/-! ## Segments -/

section Segments

variable {s : Standing}

theorem leads_notePoll (h : s.stage = .summarised) (status : ControlStatus) :
    Leads s (notePoll status : Session Event (JobRun σ δ π) Unit) fun _ t =>
      t = s.goTo (.afterPoll status) :=
  .act fun _ he => ⟨_, .single (.polled h status),
    ⟨he.config, he.uri, he.epochMillis, he.segmentNumber, he.nextFrame, he.now⟩, rfl⟩

theorem summarises_of_none {tracks : List Track} (h : s.stage = .found tracks)
    (hnone : firstActivity? tracks = none) : s.stage.Summarises tracks := by
  have htracks : tracks = [] := by simpa [firstActivity?] using hnone
  rw [h, htracks]
  exact .quiet

variable [Detector δ]

/-- A full segment is handed over, and the next one begins behind it. -/
theorem leads_detect {frames : List Frame} (h : s.stage = .reading frames)
    (hfull : frames.length = s.config.segmentLength) {stop : Int32}
    (hstop : s.stopFrame? = some stop) :
    Leads s (do
        .update fun e => { e with nextFrame := stop + 1 }
        detect (s.videoJob stop frames) : Session Event (JobRun σ δ π) (List Track))
      fun found t => t = { s with
        nextFrame := stop + 1
        stage := .found (repairTracks found s.nextFrame stop) } := by
  intro e he
  let answer := Detector.detectVideo (s.videoJob stop frames) e.detector
  have hrun : (do
        .update fun e => { e with nextFrame := stop + 1 }
        detect (s.videoJob stop frames) : Session Event (JobRun σ δ π) (List Track)).run e =
      ⟨.value (tracksOf answer.1), [.detected (s.videoJob stop frames) answer.1],
        { e with nextFrame := stop + 1, detector := answer.2 }⟩ := by
    rw [Session.run_bind_value (Session.run_update _ e), detect,
      Session.run_bind_value (Session.run_act _ _)]
    simp only [answer]
    cases (Detector.detectVideo (s.videoJob stop frames) e.detector).1 <;> rfl
  rw [hrun]
  exact ⟨_, .single (.detected h hfull hstop answer.1),
    ⟨he.config, he.uri, he.epochMillis, he.segmentNumber, rfl, he.now⟩, rfl⟩

variable [Resolution] [VideoSource σ] [Publisher π]

theorem leads_runSegment (h : s.stage = .reading []) :
    Leads s (runSegment : Session Event (JobRun σ δ π) Unit) fun _ t => t.stage = .summarised := by
  refine .world fun e he => ?_
  simp only [he.config, he.nextFrame, he.segmentNumber, he.epochMillis]
  cases hstop : stopFrame? s.nextFrame s.config.segmentSize with
  | none => exact .fail (.overflowed h hstop)
  | some stop =>
    have hfits : s.stopFrame?.isSome := Option.isSome_of_eq_some hstop
    refine .bind (leads_awaitFrames _ h (Nat.zero_add _) hfits) ?_
    rintro frames _ ⟨hfull, now, rfl⟩
    have hstop' : (s.later now (.reading frames)).stopFrame? = some stop := hstop
    -- the count goes on and the component answers in one step
    rw [← Session.bind_assoc]
    refine .bind (leads_detect (s := s.later now (.reading frames)) rfl hfull hstop') ?_
    rintro found _ rfl
    cases hfirst : firstActivity? (repairTracks found s.nextFrame stop) with
    | none =>
      exact leads_summary (summarises_of_none rfl hfirst)
    | some frameIndex =>
      refine .world fun later hlater => ?_
      rw [hlater.now]
      refine .bind (leads_send (ActivityAlert.toMessage_eq _) (.alerted rfl hfirst)) ?_
      rintro _ _ rfl
      exact leads_summary (.active _)

theorem leads_runSegments (polls : List ControlStatus) (h : s.stage = .reading []) :
    Leads s (runSegments polls : Session Event (JobRun σ δ π) Unit) fun _ t =>
      t.stage = .quitting := by
  induction polls generalizing s with
  | nil =>
    refine .bind (leads_runSegment h) ?_
    rintro _ t ht
    refine (leads_notePoll ht .quit).weaken ?_
    rintro _ _ rfl
    rfl
  | cons status polls ih =>
    refine .bind (leads_runSegment h) ?_
    rintro _ t ht
    refine .bind (leads_notePoll ht status) ?_
    rintro _ _ rfl
    cases status with
    | proceed => exact ih rfl
    | quit => exact .pure rfl
    | fatal reason => exact .fail (.broken rfl)

/-- The segments of a run take steps from its start to a poll that asks to quit. -/
theorem leads_segments (polls : List ControlStatus) (h : s.stage = .starting) :
    Leads s (do reportPhase .inProgress; runSegments polls : Session Event (JobRun σ δ π) Unit)
      fun _ t => t.stage = .quitting := by
  refine .bind (leads_reportPhase (.begun h)) ?_
  rintro _ _ rfl
  exact leads_runSegments polls rfl

/-- A run takes steps from its start, and a run that ends well has come to the end. -/
theorem leads_run (polls : List ControlStatus) (h : s.stage = .starting) :
    Leads s (run polls : Session Event (JobRun σ δ π) Unit) fun _ t => t.stage = .finished := by
  rw [run, ← Session.bind_assoc]
  refine .bind (leads_segments polls h) ?_
  rintro _ t ht
  refine .bind (leads_reportPhase (.stopReported ht)) ?_
  rintro _ _ rfl
  exact .act fun e he => ⟨_, .single (.finished rfl _),
    ⟨he.config, he.uri, he.epochMillis, he.segmentNumber, he.nextFrame, he.now⟩, rfl⟩

end Segments

end LiveDetection.JobRun
