import LiveDetection.Proofs.Retry.Handover
import LiveDetection.Proofs.Run.Frames
import LiveDetection.Proofs.Run.Waiting

/-!
# A run reads what its stream would read

A stream by itself reconnects for as long as it takes. A run without a stall timeout divides that
into two windows, for the sake of the reports between and behind them, and its delays begin anew
with the second window. On a source that follows a script the calls are the same, wherever in the
script the threshold is over, and so is the frame.
-/

namespace LiveDetection

/-- Two answers are the same, and so are the sources that they leave behind. -/
structure Reply.Alike {σ α : Type} (r r' : Reply σ α) : Prop where
  value_eq : r.value = r'.value
  source_eq : r.source = r'.source

/-- A source that follows a script: the clock decides at most how long its calls take. -/
structure Scripted (σ : Type) [VideoSource σ] : Prop where
  openAt_alike : ∀ uri now now' (source : σ),
    (VideoSource.openAt uri now source).Alike (VideoSource.openAt uri now' source)
  nextPicture_alike : ∀ now now' (source : σ),
    (VideoSource.nextPicture now source).Alike (VideoSource.nextPicture now' source)
  close_alike : ∀ now now' (source : σ),
    (VideoSource.close now source).Alike (VideoSource.close now' source)

namespace LiveStream

variable {σ : Type} [VideoSource σ]

variable [Resolution]

/-- The endless reconnection of a stream. -/
def course (s : LiveStream σ) : Retry.Course σ Frame := .endless (reopen s.uri) s.now s.source

/-- The stream yields a frame eventually, at once or to an attempt to reconnect. -/
def Yields (s : LiveStream σ) : Prop :=
  (VideoSource.nextPicture s.now s.source).value.isSome ∨
    ∃ k, ((s.after (.read none)).course.tried k).result.isSome

/-- The reconnection is followed up to its first success, also from an attempt in the middle. A
patience of more attempts than fail is always enough. -/
def Patient (s : LiveStream σ) : Prop :=
  ∀ n m, (∀ i < n + m, (s.course.tried i).result = none) →
    (s.course.tried (n + m)).result.isSome → m < VideoSource.patience (s.course.stateAfter n)

omit [Resolution] in
/-- What an attempt does is in the script. -/
theorem clockFree_reopen (h : Scripted σ) (uri : String) :
    Retry.ClockFree (reopen uri : Nat → σ → Retry.Attempt σ Frame) := by
  intro now now' source
  have hshut := h.close_alike now now' source
  have hopened := h.openAt_alike uri (now + (VideoSource.close now source).cost)
    (now' + (VideoSource.close now' source).cost) (VideoSource.close now' source).source
  simp only [reopen]
  rw [hshut.source_eq, hopened.value_eq, hopened.source_eq]
  split
  · have hread := h.nextPicture_alike
      (now + (VideoSource.close now source).cost + (VideoSource.openAt uri
        (now + (VideoSource.close now source).cost) (VideoSource.close now' source).source).cost)
      (now' + (VideoSource.close now' source).cost + (VideoSource.openAt uri
        (now' + (VideoSource.close now' source).cost) (VideoSource.close now' source).source).cost)
      (VideoSource.openAt uri (now' + (VideoSource.close now' source).cost)
        (VideoSource.close now' source).source).source
    exact ⟨hread.value_eq, by rw [hread.value_eq], hread.source_eq⟩
  · exact ⟨rfl, rfl, rfl⟩

/-- A stream that yields a frame does so with a first success. -/
theorem exists_first {s : LiveStream σ} (h : ∃ k, (s.course.tried k).result.isSome) :
    ∃ k, (∀ i < k, (s.course.tried i).result = none) ∧ (s.course.tried k).result.isSome := by
  classical
  refine ⟨Nat.find h, ?_, Nat.find_spec h⟩
  intro i hi
  simpa using Nat.find_min h hi

theorem Patient.lt_patience {s : LiveStream σ} (h : s.Patient) {k : Nat}
    (hfailed : ∀ i < k, (s.course.tried i).result = none)
    (hvalue : (s.course.tried k).result.isSome) : k < VideoSource.patience s.source := by
  have hlt := h 0 k
  rw [Nat.zero_add, Retry.Course.stateAfter_zero] at hlt
  exact hlt hfailed hvalue

omit [Resolution] in
theorem run_read (s : LiveStream σ) :
    read.run s = ⟨.value (VideoSource.nextPicture s.now s.source).value,
      [.read (VideoSource.nextPicture s.now s.source).value], s.after (.read none)⟩ :=
  rfl

theorem run_readOrReconnect_of_read {s : LiveStream σ} {frame : Frame}
    (hread : (VideoSource.nextPicture s.now s.source).value = some frame) :
    readOrReconnect.run s = ⟨.value frame, [.read (some frame)], s.after (.read none)⟩ := by
  have hplain := run_read s
  rw [hread] at hplain
  rw [readOrReconnect, Session.run_bind_value hplain]
  rfl

/-- Without a frame at once, the stream makes the attempts of its course up to the first success. -/
theorem run_readOrReconnect_of_lost {s lost : LiveStream σ}
    (hread : (VideoSource.nextPicture s.now s.source).value = none)
    (hlost : s.after (.read none) = lost) (hpatient : lost.Patient) {k : Nat} {frame : Frame}
    (hfailed : ∀ i < k, (lost.course.tried i).result = none)
    (hframe : (lost.course.tried k).result = some frame) :
    readOrReconnect.run s = ⟨.value frame, .read none :: (lost.course.upTo (k + 1)).events,
      lost.leftBy (lost.course.upTo (k + 1))⟩ := by
  have hplain := run_read s
  rw [hread, hlost] at hplain
  have hloop : reconnect.run lost = ⟨.value frame, (lost.course.upTo (k + 1)).events,
      lost.leftBy (lost.course.upTo (k + 1))⟩ := by
    have hvalue : (lost.course.upTo (k + 1)).result = some frame := by
      rw [Retry.Course.result_upTo_succ, hframe]
    have hsome := Option.isSome_of_eq_some hframe
    have hfollowed : Retry.following (reopen lost.uri) (VideoSource.patience lost.source) .endless
        lost.now lost.source = lost.course.upTo (k + 1) :=
      Retry.following_endless hfailed hsome (hpatient.lt_patience hfailed hsome)
    simp only [reconnect, hfollowed, hvalue]
    rfl
  rw [readOrReconnect, Session.run_bind_value hplain]
  simp only [hloop, List.singleton_append]

end LiveStream

namespace JobRun

variable [Resolution] {σ δ π : Type} [VideoSource σ]

/-! ## The courses of a run and of its stream -/

section

variable (hscript : Scripted σ) (e : JobRun σ δ π) (n m : Nat)

/-- The course of a run that hands over after some attempts. -/
def secondCourse : Retry.Course σ Frame := (e.lost.leftBy (e.firstCourse.upTo n)).course

include hscript

theorem state_firstCourse : (e.firstCourse.upTo n).state = (e.lost.course.upTo n).state := by
  have hfree := LiveStream.clockFree_reopen hscript e.lost.uri
  have hstate := Retry.Course.stateAfter_add (c := e.lost.course) (d := e.firstCourse) (i := 0)
    hfree rfl rfl n
  rw [Nat.zero_add] at hstate
  rw [Retry.Course.state_upTo, Retry.Course.state_upTo, hstate]

theorem callsOf_firstCourse :
    callsOf (e.firstCourse.upTo n).events = callsOf (e.lost.course.upTo n).events := by
  have hfree := LiveStream.clockFree_reopen hscript e.lost.uri
  calc callsOf (e.firstCourse.upTo n).events
      = e.firstCourse.attemptEvents n := LiveStream.callsOf_upTo (c := e.firstCourse) rfl n
    _ = e.lost.course.attemptEvents n :=
      Retry.Course.attemptEvents_eq (c := e.lost.course) (d := e.firstCourse) hfree rfl rfl n
    _ = callsOf (e.lost.course.upTo n).events :=
      (LiveStream.callsOf_upTo (c := e.lost.course) rfl n).symm

theorem state_secondCourse :
    ((e.secondCourse n).upTo m).state = (e.lost.course.upTo (n + m)).state := by
  have hfree := LiveStream.clockFree_reopen hscript e.lost.uri
  have hfirst := state_firstCourse hscript e n
  rw [Retry.Course.state_upTo e.lost.course] at hfirst
  rw [Retry.Course.state_upTo, Retry.Course.state_upTo]
  exact Retry.Course.stateAfter_add (c := e.lost.course) (d := e.secondCourse n) hfree rfl hfirst m

theorem callsOf_secondCourse :
    callsOf (e.firstCourse.upTo n).events ++ callsOf ((e.secondCourse n).upTo m).events =
      callsOf (e.lost.course.upTo (n + m)).events := by
  have hfree := LiveStream.clockFree_reopen hscript e.lost.uri
  have hfirst := state_firstCourse hscript e n
  rw [Retry.Course.state_upTo e.lost.course] at hfirst
  rw [callsOf_firstCourse hscript, LiveStream.callsOf_upTo (c := e.lost.course) rfl,
    LiveStream.callsOf_upTo (c := e.secondCourse n) rfl,
    LiveStream.callsOf_upTo (c := e.lost.course) rfl]
  exact (Retry.Course.attemptEvents_add (c := e.lost.course) (d := e.secondCourse n) hfree rfl
    hfirst m).symm

end

/-- A run that has lost a stream which yields a frame hands the reconnection over. -/
theorem exists_handsOver (hscript : Scripted σ) {e : JobRun σ δ π} (hyields : e.stream.Yields)
    (hread : (VideoSource.nextPicture e.stream.now e.stream.source).value = none) :
    ∃ k frame, (∀ i < k, (e.lost.course.tried i).result = none) ∧
      (e.lost.course.tried k).result = some frame ∧
      Retry.HandsOver (LiveStream.reopen e.lost.uri) e.config.stallAlertTicks e.lost.now
        e.lost.source k (firstWindow e.config e.lost) := by
  have hlater : ∃ k, (e.lost.course.tried k).result.isSome := by
    rcases hyields with hsome | hlater
    · rw [hread] at hsome
      cases hsome
    · exact hlater
  obtain ⟨k, hfailed, hvalue⟩ := LiveStream.exists_first hlater
  obtain ⟨frame, hframe⟩ := Option.isSome_iff_exists.mp hvalue
  refine ⟨k, frame, hfailed, hframe, ?_⟩
  exact Retry.handsOver_withinDuration (LiveStream.clockFree_reopen hscript e.lost.uri) _ _ _
    hfailed hvalue

/-- Where the first window is spent without a frame, the second one brings that of the stream. -/
theorem Stalls.exists_secondCourse (hscript : Scripted σ) {e : JobRun σ δ π}
    {first : Retry.Outcome σ Frame} (h : e.Stalls first) (hpatient : e.lost.Patient)
    (htimeout : e.config.stallTimeout = none) (hyields : e.stream.Yields) :
    ∃ n m frame, first = e.firstCourse.upTo n ∧
      (∀ i < n, e.firstCourse.elapsed i < e.config.stallAlertTicks) ∧
      e.config.stallAlertTicks ≤ e.firstCourse.elapsed n ∧
      secondWindow e.config (e.lost.leftBy first) = (e.secondCourse n).upTo (m + 1) ∧
      ((e.secondCourse n).upTo (m + 1)).result = some frame ∧
      LiveStream.readOrReconnect.run e.stream =
        ⟨.value frame, .read none :: (e.lost.course.upTo (n + (m + 1))).events,
          e.lost.leftBy (e.lost.course.upTo (n + (m + 1)))⟩ := by
  obtain ⟨k, frame, hfailed, hframe, hands⟩ := exists_handsOver hscript hyields h.read_eq
  have hplain := LiveStream.run_readOrReconnect_of_lost h.read_eq rfl hpatient hfailed hframe
  have hnone := h.result_eq
  rw [h.first_eq] at hands
  cases hands with
  | succeeded htime hvalue =>
    rw [hvalue] at hnone
    have hsome := hframe.symm.trans hnone
    cases hsome
  | @spent n m hk htime _ hspent d hd hfailed' hvalue =>
    subst hk
    obtain rfl : d = e.secondCourse n := hd
    have hframe' : ((e.secondCourse n).tried m).result = some frame := hvalue.trans hframe
    refine ⟨n, m, frame, rfl, htime, hspent, ?_, ?_, hplain⟩
    · have hfollowed : m < VideoSource.patience (e.firstCourse.upTo n).state := by
        rw [state_firstCourse hscript, Retry.Course.state_upTo]
        exact hpatient n m hfailed (Option.isSome_of_eq_some hframe)
      simp only [secondWindow, htimeout]
      exact Retry.following_endless hfailed' (Option.isSome_of_eq_some hframe') hfollowed
    · rw [Retry.Course.result_upTo_succ, hframe']

/-! ## The same calls -/

/-- A run and a stream have read the same, the stream with so many attempts to reconnect, and the
run with the early ones of them in its first window and the late ones in the second. -/
structure ReadsAlike (e : JobRun σ δ π) (early late : Nat)
    (ours : Trace Event (JobRun σ δ π) Frame) (plain : Trace Event (LiveStream σ) Frame) :
    Prop where
  /-- Both have a frame, and it is the same. -/
  ending_eq : ∃ frame, ours.ending = .value frame ∧ plain.ending = .value frame
  calls_eq : callsOf ours.events = callsOf plain.events
  source_eq : ours.world.stream.source = plain.world.source
  /-- The stream has slept for its delays. -/
  plain_sleeps : sleepsOf plain.events = (List.range (early + late)).map delayAfter
  /-- In the first window, no sleep of the run goes beyond the threshold, and in the second one the
  delays begin anew. -/
  sleeps : sleepsOf ours.events =
    (List.range early).map
      (fun i => min (e.config.stallAlertTicks - e.firstCourse.elapsed i) (delayAfter i)) ++
    (List.range late).map delayAfter
  /-- The first window is for the attempts in front of which the threshold was not over. -/
  early_lt : ∀ i < early, e.firstCourse.elapsed i < e.config.stallAlertTicks
  /-- The second one begins with the first attempt in front of which it was. -/
  spent : 0 < late → e.config.stallAlertTicks ≤ e.firstCourse.elapsed early
  /-- Nothing else happens on the stream. -/
  plain_apart : apartOf plain.events = []
  /-- What else happens in the run is the reports of a stall and of its end. -/
  apart : apartOf ours.events =
    if late = 0 then []
    else [.phaseReport e.config .stalled true, .phaseReport e.config .inProgress true]

/-- The first window is enough. -/
theorem readsAlike_firstCourse (hscript : Scripted σ) {e world : JobRun σ δ π} {n : Nat}
    (htime : ∀ i < n, e.firstCourse.elapsed i < e.config.stallAlertTicks)
    (frame : Frame) (hstream : world.stream = e.lost.leftBy (e.firstCourse.upTo n)) :
    ReadsAlike e n 0
      ⟨.value frame, .read none :: (e.firstCourse.upTo n).events, world⟩
      ⟨.value frame, .read none :: (e.lost.course.upTo n).events,
        e.lost.leftBy (e.lost.course.upTo n)⟩ := by
  constructor
  case ending_eq => exact ⟨frame, rfl, rfl⟩
  case calls_eq => rw [callsOf_read, callsOf_read, callsOf_firstCourse hscript]
  case source_eq =>
    rw [hstream]
    exact state_firstCourse hscript e n
  case plain_sleeps =>
    rw [sleepsOf_read, LiveStream.sleepsOf_upTo (c := e.lost.course) rfl]
    rfl
  case sleeps =>
    rw [sleepsOf_read, LiveStream.sleepsOf_upTo (c := e.firstCourse) rfl]
    exact (List.append_nil _).symm
  case early_lt => exact htime
  case spent => exact nofun
  case plain_apart => exact LiveStream.apartOf_upTo (c := e.lost.course) rfl n
  case apart => exact LiveStream.apartOf_upTo (c := e.firstCourse) rfl n

/-- The second window makes the attempts for which the first one has left no time. -/
theorem readsAlike_secondCourse (hscript : Scripted σ) {e world : JobRun σ δ π} {n m : Nat}
    (hm : 0 < m) (htime : ∀ i < n, e.firstCourse.elapsed i < e.config.stallAlertTicks)
    (hspent : e.config.stallAlertTicks ≤ e.firstCourse.elapsed n) (frame : Frame)
    (hstream : world.stream =
      (e.lost.leftBy (e.firstCourse.upTo n)).leftBy ((e.secondCourse n).upTo m)) :
    ReadsAlike e n m
      ⟨.value frame, .read none :: ((e.firstCourse.upTo n).events ++
        .phaseReport e.config .stalled true :: (((e.secondCourse n).upTo m).events ++
          [.phaseReport e.config .inProgress true])), world⟩
      ⟨.value frame, .read none :: (e.lost.course.upTo (n + m)).events,
        e.lost.leftBy (e.lost.course.upTo (n + m))⟩ := by
  constructor
  case ending_eq => exact ⟨frame, rfl, rfl⟩
  case calls_eq =>
    have hcalls := callsOf_secondCourse hscript e n m
    simp only [callsOf_read, callsOf_append, callsOf_phaseReport, callsOf_nil, List.append_nil,
      hcalls]
  case source_eq =>
    rw [hstream]
    exact state_secondCourse hscript e n m
  case plain_sleeps =>
    rw [sleepsOf_read, LiveStream.sleepsOf_upTo (c := e.lost.course) rfl]
    rfl
  case sleeps =>
    have hfirst := LiveStream.sleepsOf_upTo (c := e.firstCourse) rfl n
    have hsecond := LiveStream.sleepsOf_upTo (c := e.secondCourse n) rfl m
    simp only [sleepsOf_read, sleepsOf_append, sleepsOf_phaseReport, sleepsOf_nil,
      List.append_nil, hfirst, hsecond]
    rfl
  case early_lt => exact htime
  case spent => exact fun _ => hspent
  case plain_apart => exact LiveStream.apartOf_upTo (c := e.lost.course) rfl (n + m)
  case apart =>
    have hfirst := LiveStream.apartOf_upTo (c := e.firstCourse) rfl n
    have hsecond := LiveStream.apartOf_upTo (c := e.secondCourse n) rfl m
    have hne : m ≠ 0 := by omega
    simp only [apartOf_read, apartOf_append, apartOf_phaseReport, apartOf_nil, hfirst, hsecond,
      List.nil_append, if_neg hne]

variable [Publisher π]

/-- The publisher takes whatever it is given. -/
def Reliable (p : π) : Prop := ∀ sent, (publishAll sent p).1 = .ok ()

omit [Resolution] in
/-- A publisher that takes the report of a phase is as reliable as before. -/
theorem Reliable.publishPhase {p : π} (h : Reliable p) (c : JobConfig) (phase : RunPhase) :
    ∃ p', publishPhase c phase p = (.ok (), p') ∧ Reliable p' := by
  let posting := (c.transport.jobStatusQueue, c.phaseMessage phase)
  rcases hanswer : JobRun.publishPhase c phase p with ⟨error | ⟨⟩, p'⟩
  · have hone := h [posting]
    simp only [JobRun.publishPhase] at hanswer
    simp [publishAll, posting, hanswer] at hone
  · refine ⟨p', rfl, ?_⟩
    intro sent
    have hmore := h (posting :: sent)
    simp only [JobRun.publishPhase] at hanswer
    simpa [publishAll, posting, hanswer] using hmore

/-- Whichever way a run has waited, its stream alone would have made the same calls. -/
theorem exists_readsAlike_of_awaits (hscript : Scripted σ) {e : JobRun σ δ π}
    {ours : Trace Event (JobRun σ δ π) Frame}
    (h : Awaits e ours.ending ours.events ours.world.stream) (hpatient : e.lost.Patient)
    (htimeout : e.config.stallTimeout = none) (hreliable : Reliable e.publisher)
    (hyields : e.stream.Yields) :
    ∃ early late, ReadsAlike e early late ours (LiveStream.readOrReconnect.run e.stream) := by
  obtain ⟨ending, events, world⟩ := ours
  simp only [] at h
  generalize hstream : world.stream = stream at h
  obtain ⟨p, hstalled, hreliable'⟩ := hreliable.publishPhase e.config .stalled
  obtain ⟨p', hback, -⟩ := hreliable'.publishPhase e.config .inProgress
  cases h with
  | @read frame hread =>
    rw [LiveStream.run_readOrReconnect_of_read hread]
    refine ⟨0, 0, ⟨frame, rfl, rfl⟩, rfl, ?_, rfl, rfl, nofun, nofun, rfl, rfl⟩
    rw [hstream]
    rfl
  | @reconnected first frame hread hfirst hframe =>
    obtain ⟨k, frame', hfailed, hframe', hands⟩ := exists_handsOver hscript hyields hread
    rw [LiveStream.run_readOrReconnect_of_lost hread rfl hpatient hfailed hframe']
    rw [hfirst] at hands
    cases hands with
    | succeeded htime hvalue =>
      obtain rfl : frame = frame' := by
        rw [hframe] at hvalue
        exact Option.some.inj (hvalue.trans hframe')
      exact ⟨k + 1, 0, readsAlike_firstCourse hscript htime frame hstream⟩
    | spent hk _ hnone =>
      rw [hnone] at hframe
      cases hframe
  | unreported h hreport =>
    rw [hstalled] at hreport
    cases hreport
  | unrecovered h hreport hsecond hframe =>
    obtain ⟨n, m, frame, -, -, -, hwindow, hframe', -⟩ :=
      h.exists_secondCourse hscript hpatient htimeout hyields
    rw [← hsecond, hwindow, hframe'] at hframe
    cases hframe
  | unannounced h hreport hsecond hframe hanswer =>
    rw [hstalled] at hreport
    cases hreport
    rw [hback] at hanswer
    cases hanswer
  | @recovered first second _ _ frame h hreport hsecond hframe hanswer =>
    obtain ⟨n, m, frame', rfl, htime, hspent, hwindow, hframe', hplain⟩ :=
      h.exists_secondCourse hscript hpatient htimeout hyields
    obtain rfl : second = (e.secondCourse n).upTo (m + 1) := hsecond.symm.trans hwindow
    obtain rfl : frame = frame' := Option.some.inj (hframe.symm.trans hframe')
    rw [hplain]
    exact ⟨n, m + 1,
      readsAlike_secondCourse hscript (Nat.succ_pos m) htime hspent frame hstream⟩

/-- On a source that follows a script and yields a frame, with a publisher that takes the reports, a
run without a stall timeout makes the calls of its stream and has the same frame. -/
theorem exists_readsAlike (hscript : Scripted σ) {e : JobRun σ δ π}
    (htimeout : e.config.stallTimeout = none) (hreliable : Reliable e.publisher)
    (hyields : e.stream.Yields) (hpatient : e.lost.Patient) :
    ∃ early late, ReadsAlike e early late (awaitFrame.run e)
      (LiveStream.readOrReconnect.run e.stream) :=
  exists_readsAlike_of_awaits hscript (awaits_awaitFrame e) hpatient htimeout hreliable hyields

end JobRun

/-! ## Sources that answer from lists -/

namespace Rehearsal

open LiveStream (reopen)

theorem scripted_cuedSource : Scripted CuedSource where
  openAt_alike _ _ _ _ := ⟨rfl, rfl⟩
  nextPicture_alike _ _ source := by
    simp only [VideoSource.nextPicture]
    split <;> exact ⟨rfl, rfl⟩
  close_alike _ _ _ := ⟨rfl, rfl⟩

/-- How many answers of a source are listed. -/
def CuedSource.ahead (source : CuedSource) : Nat := source.opens.length + source.reads.length

theorem ahead_openAt_le (uri : String) (now : Nat) (source : CuedSource) :
    (VideoSource.openAt uri now source).source.ahead ≤ source.ahead := by
  simp only [VideoSource.openAt, CuedSource.ahead, CuedSource.tick, List.length_tail]
  omega

theorem ahead_openAt_lt {uri : String} {now : Nat} {source : CuedSource}
    (h : (VideoSource.openAt uri now source).value = false) :
    (VideoSource.openAt uri now source).source.ahead < source.ahead := by
  simp only [VideoSource.openAt, CuedSource.ahead, CuedSource.tick] at h ⊢
  cases hopens : source.opens with
  | nil => simp [hopens] at h
  | cons ok opens =>
    simp only [List.tail_cons, List.length_cons]
    omega

theorem ahead_nextPicture_lt {now : Nat} {source : CuedSource}
    (h : (VideoSource.nextPicture now source).value = none) :
    (VideoSource.nextPicture now source).source.ahead < source.ahead := by
  simp only [VideoSource.nextPicture, CuedSource.tick] at h ⊢
  cases hreads : source.reads with
  | nil => simp [hreads] at h
  | cons ok reads =>
    cases ok with
    | true => simp [hreads] at h
    | false =>
      simp only [CuedSource.ahead, hreads, List.headD_cons, List.tail_cons, List.length_cons,
        Bool.false_eq_true, if_false]
      omega

/-- An attempt fails only with an answer from one of the lists. -/
theorem ahead_reopen_lt {uri : String} {now : Nat} {source : CuedSource}
    (h : (reopen uri now source).result = none) :
    (reopen uri now source).state.ahead < source.ahead := by
  have hclosed : (VideoSource.close now source).source.ahead = source.ahead := rfl
  simp only [reopen] at h ⊢
  split at h
  next hopened =>
    rw [if_pos hopened]
    have hread := ahead_nextPicture_lt h
    have hopening := ahead_openAt_le uri (now + (VideoSource.close now source).cost)
      (VideoSource.close now source).source
    exact Nat.lt_of_lt_of_le hread hopening
  next hopened =>
    rw [if_neg hopened]
    rw [← hclosed]
    exact ahead_openAt_lt (by simpa using hopened)

theorem reliable_recorder {r : Recorder} (h : r.capacity = none) : JobRun.Reliable r := by
  intro sent
  induction sent generalizing r with
  | nil => rfl
  | cons posting sent ih =>
    have hpublish : Publisher.publish posting.1 posting.2 r =
        (.ok (), { r with kept := posting :: r.kept }) := by
      simp [Publisher.publish, h]
    rw [publishAll, hpublish]
    exact ih h

variable [Resolution]

theorem add_ahead_le {s : LiveStream CuedSource} {n m : Nat}
    (hfailed : ∀ i < n + m, (s.course.tried i).result = none) :
    m + (s.course.stateAfter (n + m)).ahead ≤ (s.course.stateAfter n).ahead := by
  induction m with
  | zero =>
    rw [Nat.zero_add]
    exact Nat.le_refl _
  | succ m ih =>
    have hbefore := ih fun i hi => hfailed i (by omega)
    have hstep : (s.course.stateAfter (n + (m + 1))).ahead < (s.course.stateAfter (n + m)).ahead :=
      ahead_reopen_lt (hfailed (n + m) (by omega))
    omega

theorem patient_cuedSource (s : LiveStream CuedSource) : s.Patient := by
  intro n m hfailed _
  have hle := add_ahead_le hfailed
  have hpatience :
      VideoSource.patience (s.course.stateAfter n) = (s.course.stateAfter n).ahead + 1 := rfl
  omega

theorem yields_cuedSource (s : LiveStream CuedSource) : s.Yields := by
  refine .inr ?_
  by_contra hnever
  have hfailed : ∀ k, ((s.after (.read none)).course.tried k).result = none := by
    intro k
    by_contra hsome
    exact hnever ⟨k, Option.isSome_iff_ne_none.mpr hsome⟩
  have hle := add_ahead_le (s := s.after (.read none)) (n := 0)
    (m := (s.after (.read none)).source.ahead + 1) fun i _ => hfailed i
  have hsource : ((s.after (.read none)).course.stateAfter 0).ahead =
      (s.after (.read none)).source.ahead := rfl
  omega

end Rehearsal

namespace JobRun

/-- A run that loses its stream at the beginning and reconnects after the stall was reported. -/
def shakenRun : JobRun Rehearsal.CuedSource Rehearsal.CuedDetector Rehearsal.Recorder :=
  { sampleRun with
    config := { sampleRun.config with stallAlertThreshold := 3 }
    stream := ⟨{ reads := [false], opens := [false, false] }, "rtsp://cam/1", 0⟩ }

/-- After two attempts the threshold of three milliseconds is over, and the third attempt, for which
the stream alone would have slept four milliseconds, is made after one. -/
theorem readsAlike_shakenRun :
    Scripted Rehearsal.CuedSource ∧ shakenRun.config.stallTimeout = none ∧
      Reliable shakenRun.publisher ∧ shakenRun.stream.Yields ∧ shakenRun.lost.Patient ∧
      (∃ early late, ReadsAlike shakenRun early late (awaitFrame.run shakenRun)
        (LiveStream.readOrReconnect.run shakenRun.stream)) ∧
      sleepsOf (awaitFrame.run shakenRun).events = [1000, 2000, 1000] ∧
      sleepsOf (LiveStream.readOrReconnect.run shakenRun.stream).events = [1000, 2000, 4000] := by
  have hreliable : Reliable shakenRun.publisher := Rehearsal.reliable_recorder rfl
  have hyields := Rehearsal.yields_cuedSource shakenRun.stream
  have hpatient := Rehearsal.patient_cuedSource shakenRun.lost
  exact ⟨Rehearsal.scripted_cuedSource, rfl, hreliable, hyields, hpatient,
    exists_readsAlike Rehearsal.scripted_cuedSource rfl hreliable hyields hpatient,
    by decide +kernel, by decide +kernel⟩

end JobRun

end LiveDetection
