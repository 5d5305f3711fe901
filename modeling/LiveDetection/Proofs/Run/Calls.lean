import LiveDetection.Proofs.Capture.Calls
import LiveDetection.Proofs.Run.Frames
import LiveDetection.Proofs.Run.Parts

/-!
# The calls of a run to its source

A run reads from an open source until a read fails. Then it reconnects, and it may give up or
fail to report the stall in between; in either case no reconnection is under way at its end, so
the close that follows is in order.
-/

namespace LiveDetection.JobRun

variable {σ δ π α β : Type}

open Link

/-- From a link, the events of a session lead to one that depends on its value. Without a value
they lead to a link with no reconnection under way. -/
def Drives (link : Link) (p : Session Event (JobRun σ δ π) α) (next : α → Link) : Prop :=
  ∀ e, ∃ last, Calls link (p.run e).events last ∧
    match (p.run e).ending with
    | .value a => last = next a
    | _ => last.Idle

namespace Drives

variable {link : Link} {next : α → Link}

theorem pure {a : α} (h : next a = link) :
    Drives link (Pure.pure a : Session Event (JobRun σ δ π) α) next :=
  fun _ => ⟨link, .refl, h.symm⟩

theorem fail {error : RunError} (h : link.Idle) :
    Drives link (Session.fail error : Session Event (JobRun σ δ π) α) next :=
  fun _ => ⟨link, .refl, h⟩

/-- An answer that does not come from the source. -/
theorem apart {step : JobRun σ δ π → α × List Event × JobRun σ δ π} (event : JobRun σ δ π → Event)
    (h : ∀ e, (step e).2.1 = [event e] ∧ (event e).Apart) :
    Drives link (Session.act step) fun _ => link :=
  fun e => ⟨link, by rw [Session.run_act, (h e).1]; exact .single (.apart (h e).2), rfl⟩

theorem bind {p : Session Event (JobRun σ δ π) β} {f : β → Session Event (JobRun σ δ π) α}
    {mid : β → Link} (hp : Drives link p mid) (hf : ∀ b, Drives (mid b) (f b) next) :
    Drives link (p >>= f) next := by
  intro e
  obtain ⟨last, hcalls, hend⟩ := hp e
  rcases hrun : p.run e with ⟨ending, events, world⟩
  rw [hrun] at hcalls hend
  cases ending with
  | value b =>
    obtain rfl : last = mid b := hend
    obtain ⟨last, hrest, hlast⟩ := hf b world
    rw [Session.run_bind_value hrun]
    exact ⟨last, hcalls.trans hrest, hlast⟩
  | failed error =>
    rw [Session.run_bind_failed hrun]
    exact ⟨last, hcalls, hend⟩
  | waiting =>
    rw [Session.run_bind_waiting hrun]
    exact ⟨last, hcalls, hend⟩

/-- Looking at the world is no event. -/
theorem world {f : JobRun σ δ π → Session Event (JobRun σ δ π) α}
    (h : ∀ e, Drives link (f e) next) : Drives link (Session.world >>= f) next :=
  .bind (fun _ => ⟨link, .refl, rfl⟩) h

theorem update (change : JobRun σ δ π → JobRun σ δ π) :
    Drives link (Session.update change) fun _ => link :=
  fun _ => ⟨link, .refl, rfl⟩

/-- However the session ends, no reconnection is under way then if its values say so. -/
theorem exists_idle {p : Session Event (JobRun σ δ π) α} (h : Drives link p next)
    (hnext : ∀ a, (next a).Idle) (e : JobRun σ δ π) :
    ∃ last, Calls link (p.run e).events last ∧ last.Idle := by
  obtain ⟨last, hcalls, hend⟩ := h e
  refine ⟨last, hcalls, ?_⟩
  cases hending : (p.run e).ending with
  | value a =>
    rw [hending] at hend
    exact hend ▸ hnext a
  | failed | waiting => simpa only [hending] using hend

end Drives

variable {link : Link}

/-! ## Everything but the source -/

theorem drives_send [Publisher π] {ρ : Type} [Wire ρ] (hidle : link.Idle) (queue : String)
    (report : ρ) :
    Drives link (send queue report : Session Event (JobRun σ δ π) Unit) fun _ => link := by
  intro e
  refine ⟨link, ?_⟩
  cases hm : Wire.toMessage report with
  | error error =>
    rw [run_send_error hm]
    exact ⟨.refl, hidle⟩
  | ok m =>
    rw [run_send hm]
    refine ⟨.single (.apart ⟨rfl, rfl⟩), ?_⟩
    cases (Publisher.publish queue m e.publisher).1 with
    | ok => rfl
    | error error => exact hidle

theorem drives_reportPhase [Publisher π] (hidle : link.Idle) (phase : RunPhase) :
    Drives link (reportPhase phase : Session Event (JobRun σ δ π) Unit) fun _ => link :=
  .world fun _ => drives_send hidle _ _

theorem drives_notePoll (status : ControlStatus) :
    Drives link (notePoll status : Session Event (JobRun σ δ π) Unit) fun _ => link :=
  .apart _ fun _ => ⟨rfl, rfl, rfl⟩

theorem drives_detect [Detector δ] (job : VideoJob) :
    Drives link (detect job : Session Event (JobRun σ δ π) (List Track)) fun _ => link := by
  refine .bind (.apart _ fun _ => ⟨rfl, rfl, rfl⟩) ?_
  rintro (error | tracks) <;> exact .pure rfl

theorem drives_finish [Detector δ] :
    Drives link (finish : Session Event (JobRun σ δ π) Unit) fun _ => link :=
  .apart _ fun _ => ⟨rfl, rfl, rfl⟩

/-! ## The source -/

section

variable [VideoSource σ]

theorem drives_read :
    Drives up (onStream LiveStream.read : Session Event (JobRun σ δ π) _) afterRead :=
  fun _ => ⟨_, .single (.read _), rfl⟩

variable [Resolution]

theorem drives_reconnectFor (duration : Nat) :
    Drives down (onStream (LiveStream.reconnectFor duration) : Session Event (JobRun σ δ π) _)
      afterRead :=
  fun _ => ⟨_, LiveStream.calls_of_turns (Retry.turns_within _ rfl _ _), rfl⟩

theorem drives_reconnect :
    Drives down (onStream LiveStream.reconnect : Session Event (JobRun σ δ π) _) fun _ => up := by
  intro e
  have hcalls := LiveStream.calls_of_turns (Retry.turns_following (LiveStream.reopen e.stream.uri)
    (VideoSource.patience e.stream.source) .endless e.stream.now e.stream.source)
  refine ⟨_, hcalls, ?_⟩
  simp only [onStream, Session.run_onPart, LiveStream.reconnect]
  cases (Retry.following (LiveStream.reopen e.stream.uri) (VideoSource.patience e.stream.source)
    .endless e.stream.now e.stream.source).result with
  | some frame => rfl
  | none => exact idle_down

theorem drives_recover :
    Drives down (recover : Session Event (JobRun σ δ π) Frame) fun _ => up := by
  refine .world fun e => ?_
  cases e.config.stallTimeout with
  | none => exact drives_reconnect
  | some timeout =>
    refine .bind (drives_reconnectFor _) ?_
    rintro (_ | frame)
    · exact .fail idle_down
    · exact .pure rfl

variable [Publisher π]

/-- However a frame arrives, the source is open then. -/
theorem drives_awaitFrame :
    Drives up (awaitFrame : Session Event (JobRun σ δ π) Frame) fun _ => up := by
  refine .bind drives_read ?_
  rintro (_ | frame)
  · refine .world fun e => ?_
    refine .bind (drives_reconnectFor _) ?_
    rintro (_ | frame)
    · refine .bind (drives_reportPhase idle_down .stalled) fun _ => ?_
      refine .bind drives_recover fun frame => ?_
      exact .bind (drives_reportPhase idle_up .inProgress) fun _ => .pure rfl
    · exact .pure rfl
  · exact .pure rfl

variable [Detector δ]

/-- Between the frames of a run, its source is open. -/
theorem pervasive_drives :
    Pervasive fun _ (p : Session Event (JobRun σ δ π) _) => Drives up p fun _ => up where
  pure _ := .pure rfl
  fail _ := .fail idle_up
  bind := .bind
  world _ := ⟨up, .refl, rfl⟩
  update _ := .update _
  reportPhase _ := drives_reportPhase idle_up _
  alert _ := drives_send idle_up _ _
  summary _ := drives_send idle_up _ _
  notePoll := drives_notePoll
  detect := drives_detect
  finish := drives_finish
  awaitFrame := drives_awaitFrame

/-- The same run on another stream. -/
def withStream (e : JobRun σ δ π) (stream : LiveStream σ) : JobRun σ δ π :=
  { e with stream := stream }

/-- On a stream that was opened, the calls of a run are in order, however the run ends: from the
first opening to the one close with which the stream is let go. Up to there the run has slept once
for every close. -/
theorem callsInOrder_run {source : σ} {uri : String} {now : Nat}
    (hconnect : (LiveStream.connect source uri now).1 = .ok ()) (e : JobRun σ δ π)
    (polls : List ControlStatus) :
    let connected := LiveStream.connect source uri now
    let trace := (run polls).run (e.withStream connected.2.2)
    let events := connected.2.1 ++ trace.events
    (LiveStream.disconnect.run trace.world.stream).events = [.closed] ∧
      CallsInOrder (callsOf (events ++ [.closed])) ∧
      (sleepsOf events).length = closeCount events := by
  intro connected trace events
  have hopening : Calls shut connected.2.1 up := by
    simp only [connected]
    have hok : (VideoSource.openAt uri now source).value = true := by
      simpa [LiveStream.connect] using hconnect
    rw [LiveStream.connect, hok]
    exact .single (.opened uri true)
  obtain ⟨last, hrun, hidle⟩ :=
    (pervasive_drives.run polls).exists_idle (fun _ => idle_up) (e.withStream connected.2.2)
  have htells := (hopening.trans hrun).tells
  exact ⟨rfl, htells.callsInOrder hidle, htells.sleeps_eq hidle⟩

end

/-- On the stream of the sample run, a run reconnects three times. -/
theorem callsInOrder_sampleRun :
    let connected := LiveStream.connect sampleRun.stream.source "rtsp://cam/1" 0
    let trace := (run [.proceed]).run (sampleRun.withStream connected.2.2)
    let events := connected.2.1 ++ trace.events
    connected.1 = .ok () ∧ CallsInOrder (callsOf (events ++ [.closed])) ∧
      (sleepsOf events).length = 3 := by
  have hconnect : (LiveStream.connect sampleRun.stream.source "rtsp://cam/1" 0).1 = .ok () := rfl
  obtain ⟨-, horder, hsleeps⟩ := callsInOrder_run hconnect sampleRun [.proceed]
  refine ⟨hconnect, horder, hsleeps.trans ?_⟩
  decide +kernel

end LiveDetection.JobRun
