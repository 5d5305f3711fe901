import LiveDetection.Proofs.Run.Reports

/-!
# The order of the reports

The messages that a run sends out begin a word of the grammar. A poll stands directly behind
every summary and nowhere else. The report of the stop is attempted exactly when a poll asks to
quit; a run ends well exactly when it goes out, and only then is the component told to finish,
once and last.
-/

namespace LiveDetection

open ReportKind

/-! ## Neighbours -/

/-- Every event of the first kind is followed at once by one of the second kind, and there are
no others of the second kind. -/
structure FollowedBy (A B : Event → Prop) (events : List Event) : Prop where
  /-- Of two neighbours, the one is of the first kind if and only if the other is of the second. -/
  neighbours : events.IsChain fun a b => A a ↔ B b
  first : ∀ e ∈ events.head?, ¬ B e
  last : ∀ e ∈ events.getLast?, ¬ A e

namespace FollowedBy

variable {A B : Event → Prop} {events : List Event}

theorem exists_after (h : FollowedBy A B events) {before after : List Event} {a : Event}
    (hevents : events = before ++ a :: after) (ha : A a) :
    ∃ b rest, after = b :: rest ∧ B b := by
  cases after with
  | nil =>
    have hlast : a ∈ events.getLast? := by simp [hevents]
    exact absurd ha (h.last a hlast)
  | cons b rest =>
    have hpair := List.isChain_iff_forall_rel_of_append_cons_cons.mp h.neighbours hevents
    exact ⟨b, rest, rfl, hpair.mp ha⟩

theorem exists_before (h : FollowedBy A B events) {before after : List Event} {b : Event}
    (hevents : events = before ++ b :: after) (hb : B b) :
    ∃ front a, before = front ++ [a] ∧ A a := by
  rcases List.eq_nil_or_concat' before with rfl | ⟨front, a, rfl⟩
  · have hfirst : b ∈ events.head? := by simp [hevents]
    exact absurd hb (h.first b hfirst)
  · rw [List.append_assoc] at hevents
    have hpair := List.isChain_iff_forall_rel_of_append_cons_cons.mp h.neighbours hevents
    exact ⟨front, a, rfl, hpair.mpr hb⟩

theorem exists_iff (h : FollowedBy A B events) : (∃ e ∈ events, A e) ↔ ∃ e ∈ events, B e := by
  constructor
  · rintro ⟨a, hmem, ha⟩
    obtain ⟨before, after, hevents⟩ := List.append_of_mem hmem
    obtain ⟨b, rest, rfl, hb⟩ := h.exists_after hevents ha
    exact ⟨b, by simp [hevents], hb⟩
  · rintro ⟨b, hmem, hb⟩
    obtain ⟨before, after, hevents⟩ := List.append_of_mem hmem
    obtain ⟨front, a, rfl, ha⟩ := h.exists_before hevents hb
    exact ⟨a, by simp [hevents], ha⟩

end FollowedBy

/-- If exactly the events of the first kind lead into some stages, and exactly those of the second
lead out of them, then the first are followed by the second. -/
theorem Steps.followedBy {s t : Standing} {events : List Event} (h : Steps s events t)
    {A B : Event → Prop} (inside : Stage → Prop) (hs : ¬ inside s.stage) (ht : ¬ inside t.stage)
    (enter : ∀ {u e v}, u.config = s.config → Step u e v → (A e ↔ inside v.stage))
    (leave : ∀ {u e v}, u.config = s.config → Step u e v → (B e ↔ inside u.stage)) :
    FollowedBy A B events := by
  have hinv : events.IsChain (fun a b => A a ↔ B b) ∧ (∀ e ∈ events.head?, ¬ B e) ∧
      ((∃ e ∈ events.getLast?, A e) ↔ inside t.stage) := by
    clear ht
    induction h with
    | refl => simpa using hs
    | @step past now next e h hstep ih =>
      obtain ⟨hchain, hfirst, hlast⟩ := ih
      have hleave := leave h.config_eq hstep
      refine ⟨List.isChain_append.mpr ⟨hchain, List.isChain_singleton _, ?_⟩, ?_, ?_⟩
      · intro a ha b hb
        obtain rfl : e = b := by simpa using hb
        rw [hleave, ← hlast]
        simp [Option.mem_def.mp ha]
      · cases past with
        | nil =>
          have hout : ¬ inside now.stage := by simpa using hlast
          simpa [hleave] using hout
        | cons first rest => simpa using hfirst
      · simpa using enter h.config_eq hstep
  exact ⟨hinv.1, hinv.2.1, fun e he ha => ht (hinv.2.2.mp ⟨e, he, ha⟩)⟩

namespace Event

/-- The event hands a report of a kind to the publisher. -/
def Reports (c : JobConfig) (kind : ReportKind) (accepted : Bool) (e : Event) : Prop :=
  ∃ posting : String × Message,
    e = .published posting.1 posting.2 accepted ∧ kind.Describes c posting

/-- The event is a poll of the control channel. -/
def IsPoll (e : Event) : Prop := ∃ status, e = .polled status

/-- The event tells the component to finish. -/
def IsFinish (e : Event) : Prop := ∃ ok, e = .finished ok

variable {c : JobConfig} {kind kind' : ReportKind} {accepted accepted' : Bool}

/-- A message that is a report of one kind is a report of no other. -/
theorem reports_published_iff {queue : String} {m : Message} (h : kind.Describes c (queue, m)) :
    (published queue m accepted).Reports c kind' accepted' ↔
      kind = kind' ∧ accepted = accepted' := by
  constructor
  · rintro ⟨⟨queue', m'⟩, he, h'⟩
    injection he with hqueue hm haccepted
    subst hqueue hm
    exact ⟨ReportKind.describes_unique h h', haccepted⟩
  · rintro ⟨rfl, rfl⟩
    exact ⟨(queue, m), rfl, h⟩

@[simp] theorem reports_phaseReport (phase : RunPhase) :
    (phaseReport c phase accepted).Reports c kind accepted' ↔
      .status phase = kind ∧ accepted = accepted' :=
  reports_published_iff (ReportKind.describes_phaseMessage c phase)

end Event

/-! ## Turns

Where a segment is over, one event only is possible: a poll, the report of the stop or the end
of the component. Everywhere else none of them is. -/

/-- The stage is none of those behind a summary. -/
structure Stage.Inner (stage : Stage) : Prop where
  not_summarised : stage ≠ .summarised
  not_quitting : stage ≠ .quitting
  not_closing : stage ≠ .closing
  not_finished : stage ≠ .finished

/-- The event is none of those behind a summary, nor a summary that goes out. -/
structure Event.Inner (c : JobConfig) (e : Event) : Prop where
  not_isPoll : ¬ e.IsPoll
  not_isFinish : ¬ e.IsFinish
  not_stopped : ∀ accepted, ¬ e.Reports c (.status .stopped) accepted
  not_summary : ¬ e.Reports c .summary true

namespace Event

variable {c : JobConfig}

theorem Elapses.inner {e : Event} {now later : Nat} (h : e.Elapses now later) : e.Inner c := by
  constructor <;> cases h <;> simp [IsPoll, IsFinish, Reports]

theorem inner_read (frame : Option Frame) : (read frame).Inner c := by
  constructor <;> simp [IsPoll, IsFinish, Reports]

theorem inner_detected (job : VideoJob) (result : Except DetectionError (List Track)) :
    (detected job result).Inner c := by
  constructor <;> simp [IsPoll, IsFinish, Reports]

theorem inner_published {kind : ReportKind} {queue : String} {m : Message} {accepted : Bool}
    (h : kind.Describes c (queue, m)) (hstop : kind ≠ .status .stopped)
    (hsummary : kind = .summary → accepted = false) : (published queue m accepted).Inner c := by
  constructor
  · simp [IsPoll]
  · simp [IsFinish]
  · simp [reports_published_iff h, hstop]
  · simpa [reports_published_iff h] using hsummary

end Event

namespace Stage

theorem Retries.inner {stage : Stage} {next : Frame → Stage} (h : stage.Retries next) :
    stage.Inner := by
  cases h <;> constructor <;> simp

theorem Retries.inner_next {stage : Stage} {next : Frame → Stage} (h : stage.Retries next)
    (frame : Frame) : (next frame).Inner := by
  cases h <;> constructor <;> simp

theorem Summarises.inner {stage : Stage} {tracks : List Track} (h : stage.Summarises tracks) :
    stage.Inner := by
  cases h <;> constructor <;> simp

end Stage

/-- What a step does, seen from the stages behind a summary. -/
inductive Turn (s : Standing) (e : Event) (t : Standing) : Prop
  | poll (hs : s.stage = .summarised) (status : ControlStatus) (he : e = .polled status)
    (ht : t.stage = .afterPoll status)
  | stop (hs : s.stage = .quitting) (accepted : Bool)
    (he : e = .phaseReport s.config .stopped accepted)
    (ht : t.stage = if accepted then .closing else .refused s.config.transport.jobStatusQueue)
  | finish (hs : s.stage = .closing) (ok : Bool) (he : e = .finished ok) (ht : t.stage = .finished)
  | summary (hs : s.stage.Inner) {queue : String} {m : Message} (he : e = .published queue m true)
    (hm : ReportKind.summary.Describes s.config (queue, m)) (ht : t.stage = .summarised)
  | inner (hs : s.stage.Inner) (he : e.Inner s.config) (ht : t.stage.Inner)

namespace Step

variable {s t : Standing} {e : Event}

theorem turn (h : Step s e t) : Turn s e t := by
  have hphase : ∀ phase accepted, phase ≠ .stopped →
      (Event.phaseReport s.config phase accepted).Inner s.config := fun phase accepted hphase =>
    Event.inner_published (ReportKind.describes_phaseMessage _ _) (by simpa using hphase) (by simp)
  cases h with
  | polled h status => exact .poll h status rfl rfl
  | stopReported h accepted => exact .stop h accepted rfl rfl
  | finished h ok => exact .finish h ok rfl rfl
  | summarised h hm => exact .summary h.inner rfl (Standing.describes_summary hm) rfl
  | unsummarised h hm =>
    refine .inner h.inner ?_ (by constructor <;> simp)
    exact Event.inner_published (Standing.describes_summary hm) (by simp) (by simp)
  | begun h accepted | stallReported h accepted | recoveryReported h accepted =>
    refine .inner (by constructor <;> simp [h]) (hphase _ _ (by simp)) ?_
    cases accepted <;> constructor <;> simp
  | alerted h hfirst accepted =>
    refine .inner (by constructor <;> simp [h]) ?_ ?_
    · exact Event.inner_published (Standing.describes_alert s _) (by simp) (by simp)
    · cases accepted <;> constructor <;> simp
  | read h | lost h =>
    exact .inner (by constructor <;> simp [h]) (Event.inner_read _) (by constructor <;> simp)
  | detected h =>
    exact .inner (by constructor <;> simp [h]) (Event.inner_detected _ _) (by constructor <;> simp)
  | retried h he => exact .inner h.inner he.inner h.inner
  | reconnected h frame => exact .inner h.inner (Event.inner_read _) (h.inner_next frame)

/-- A poll leads out of a summarised segment, and nothing else does. -/
theorem isPoll_iff (h : Step s e t) : e.IsPoll ↔ s.stage = .summarised := by
  cases h.turn with
  | poll hs status he => simp [hs, he, Event.IsPoll]
  | stop hs accepted he => simp [hs, he, Event.IsPoll, Event.phaseReport]
  | finish hs ok he => simp [hs, he, Event.IsPoll]
  | summary hs he => simp [hs.not_summarised, he, Event.IsPoll]
  | inner hs he => simp [hs.not_summarised, he.not_isPoll]

/-- A summary that goes out leads into a summarised segment, and nothing else does. -/
theorem reports_summary_iff (h : Step s e t) :
    e.Reports s.config .summary true ↔ t.stage = .summarised := by
  cases h.turn with
  | poll hs status he ht => cases status <;> simp [ht, he, Event.Reports, Stage.afterPoll]
  | stop hs accepted he ht => cases accepted <;> simp [ht, he]
  | finish hs ok he ht => simp [ht, he, Event.Reports]
  | summary hs he hm ht => simp [ht, he, Event.reports_published_iff hm]
  | inner hs he ht => simp [ht.not_summarised, he.not_summary]

/-- A poll that asks to quit leads to the report of the stop, and nothing else does. -/
theorem polled_quit_iff (h : Step s e t) : e = .polled .quit ↔ t.stage = .quitting := by
  cases h.turn with
  | poll hs status he ht => cases status <;> simp [ht, he, Stage.afterPoll]
  | stop hs accepted he ht => cases accepted <;> simp [ht, he, Event.phaseReport]
  | finish hs ok he ht => simp [ht, he]
  | summary hs he hm ht => simp [ht, he]
  | inner hs he ht =>
    have hpoll : e ≠ .polled .quit := fun h => he.not_isPoll ⟨_, h⟩
    simp [ht.not_quitting, hpoll]

/-- The stop is reported where such a poll has led to, and nowhere else. -/
theorem reports_stopped_iff (h : Step s e t) :
    (∃ accepted, e.Reports s.config (.status .stopped) accepted) ↔ s.stage = .quitting := by
  cases h.turn with
  | poll hs status he => simp [hs, he, Event.Reports]
  | stop hs accepted he => simp [hs, he]
  | finish hs ok he => simp [hs, he, Event.Reports]
  | summary hs he hm => simp [hs.not_quitting, he, Event.reports_published_iff hm]
  | inner hs he => simp [hs.not_quitting, he.not_stopped]

/-- A report of the stop that goes out leads to the end of the component. -/
theorem reports_stopped_true_iff (h : Step s e t) :
    e.Reports s.config (.status .stopped) true ↔ t.stage = .closing := by
  cases h.turn with
  | poll hs status he ht => cases status <;> simp [ht, he, Event.Reports, Stage.afterPoll]
  | stop hs accepted he ht => cases accepted <;> simp [ht, he]
  | finish hs ok he ht => simp [ht, he, Event.Reports]
  | summary hs he hm ht => simp [ht, he, Event.reports_published_iff hm]
  | inner hs he ht => simp [ht.not_closing, he.not_stopped]

/-- The component is told to finish where the report of the stop has led to. -/
theorem isFinish_iff (h : Step s e t) : e.IsFinish ↔ s.stage = .closing := by
  cases h.turn with
  | poll hs status he => simp [hs, he, Event.IsFinish]
  | stop hs accepted he => simp [hs, he, Event.IsFinish, Event.phaseReport]
  | finish hs ok he => simp [hs, he, Event.IsFinish]
  | summary hs he => simp [hs.not_closing, he, Event.IsFinish]
  | inner hs he => simp [hs.not_closing, he.not_isFinish]

/-- After the component was told to finish, nothing happens. -/
theorem stage_ne_finished (h : Step s e t) : s.stage ≠ .finished := by
  cases h.turn with
  | poll hs | stop hs | finish hs => simp [hs]
  | summary hs | inner hs => exact hs.not_finished

theorem isFinish_iff_finished (h : Step s e t) : e.IsFinish ↔ t.stage = .finished := by
  cases h.turn with
  | poll hs status he ht => cases status <;> simp [ht, he, Event.IsFinish, Stage.afterPoll]
  | stop hs accepted he ht => cases accepted <;> simp [ht, he, Event.IsFinish, Event.phaseReport]
  | finish hs ok he ht => simp [ht, he, Event.IsFinish]
  | summary hs he hm ht => simp [ht, he, Event.IsFinish]
  | inner hs he ht => simp [ht.not_finished, he.not_isFinish]

end Step

/-- A recovery follows a stall among messages as it does among their kinds. -/
theorem isChain_of_describes {c : JobConfig} {kinds : List ReportKind}
    {sent : List (String × Message)} (h : List.Forall₂ (Describes c) kinds sent)
    (hkinds : kinds.IsChain fun a b => a = .status .stalled → b = .status .inProgress) :
    sent.IsChain fun a b =>
      (ReportKind.status .stalled).Describes c a →
        (ReportKind.status .inProgress).Describes c b := by
  induction h with
  | nil => exact .nil
  | @cons kind posting kinds sent hkind hrest ih =>
    refine List.isChain_cons.mpr ⟨?_, ih hkinds.tail⟩
    intro next hnext hstall
    obtain rfl := describes_unique hkind hstall
    cases hrest with
    | nil => simp at hnext
    | cons hsecond =>
      obtain rfl := Option.some.inj hnext
      rw [(List.isChain_cons_cons.mp hkinds).1 rfl] at hsecond
      exact hsecond

namespace Steps

variable {s t : Standing} {events : List Event}

/-- The component is told to finish on the way to the end of a run and on no other way. -/
theorem isFinish_iff (h : Steps s events t) (hs : s.stage = .starting) :
    (∃ e ∈ events, e.IsFinish) ↔ t.stage = .finished := by
  induction h with
  | refl => simp [hs]
  | step _ hstep ih =>
    have hpast := mt ih.mp hstep.stage_ne_finished
    have hlast := hstep.isFinish_iff_finished
    simp only [List.mem_append, List.mem_singleton, or_and_right, exists_or, exists_eq_left]
    simp only [hpast, false_or, hlast]

theorem summary_followedBy_poll (h : Steps s events t) (hs : s.stage = .starting)
    (ht : t.stage ≠ .summarised) :
    FollowedBy (Event.Reports s.config .summary true) Event.IsPoll events := by
  refine h.followedBy (· = .summarised) (by simp [hs]) ht ?_ fun _ hstep => hstep.isPoll_iff
  intro u e v hconfig hstep
  rw [← hconfig]
  exact hstep.reports_summary_iff

theorem quit_followedBy_stop (h : Steps s events t) (hs : s.stage = .starting)
    (ht : t.stage ≠ .quitting) :
    FollowedBy (· = .polled .quit)
      (fun e => ∃ accepted, e.Reports s.config (.status .stopped) accepted) events := by
  refine h.followedBy (· = .quitting) (by simp [hs]) ht (fun _ hstep => hstep.polled_quit_iff) ?_
  intro u e v hconfig hstep
  rw [← hconfig]
  exact hstep.reports_stopped_iff

theorem stop_followedBy_finish (h : Steps s events t) (hs : s.stage = .starting)
    (ht : t.stage ≠ .closing) :
    FollowedBy (Event.Reports s.config (.status .stopped) true) Event.IsFinish events := by
  refine h.followedBy (· = .closing) (by simp [hs]) ht ?_ fun _ hstep => hstep.isFinish_iff
  intro u e v hconfig hstep
  rw [← hconfig]
  exact hstep.reports_stopped_true_iff

/-- The steps to the end of a run end with the report of the stop and the end of the component. -/
theorem finished (h : Steps s events t) (hs : s.stage = .starting) (ht : t.stage = .finished) :
    ∃ before stop finish, events = before ++ [stop, finish] ∧
      stop.Reports s.config (.status .stopped) true ∧ finish.IsFinish ∧
      ∀ e ∈ before, ¬ e.IsFinish := by
  have hclose := h.stop_followedBy_finish hs (by simp [ht])
  cases h with
  | refl => simp [hs] at ht
  | @step past now _ finish hpast hstep =>
    have hfinish := hstep.isFinish_iff_finished.mpr ht
    obtain ⟨before, stop, rfl, hstop⟩ := hclose.exists_before rfl hfinish
    have hnot := mt (hpast.isFinish_iff hs).mp hstep.stage_ne_finished
    refine ⟨before, stop, finish, by simp, hstop, hfinish, fun e he hbefore => ?_⟩
    exact hnot ⟨e, List.mem_append_left _ he, hbefore⟩

end Steps

/-! ## Runs -/

namespace MayFail

theorem inner {s : Standing} {error : RunError} (h : MayFail s error) : s.stage.Inner := by
  cases h with
  | refused h | broken h | overflowed h | gaveUp h =>
    rw [h]
    constructor <;> simp
  | tooLarge h => exact h.inner

end MayFail

theorem MayWait.inner {s : Standing} (h : MayWait s) : s.stage.Inner := by
  obtain ⟨-, frames, h⟩ := h
  rw [h]
  constructor <;> simp

/-- The reports, polls and the end of a run about a job are in order. -/
structure Orderly {ω : Type} (c : JobConfig) (t : Trace Event ω Unit) : Prop where
  /-- The messages that go out begin a word of the grammar. -/
  grammar : ∃ kinds word, List.Forall₂ (ReportKind.Describes c) kinds (sentOf t.events) ∧
    kinds <+: word ∧ word ∈ jobReports.matches'
  /-- There is one poll directly behind every summary that goes out, and there are no others. -/
  polls : FollowedBy (Event.Reports c .summary true) Event.IsPoll t.events
  /-- The report of the stop is attempted if and only if a poll asks to quit. -/
  stop : (∃ e ∈ t.events, ∃ accepted, e.Reports c (.status .stopped) accepted) ↔
    .polled .quit ∈ t.events
  /-- A stall is the last message that goes out, or the next one reports the recovery. -/
  stall : (sentOf t.events).IsChain fun a b =>
    (ReportKind.status .stalled).Describes c a → (ReportKind.status .inProgress).Describes c b
  /-- The run ends well if and only if the report of the stop goes out. -/
  value : t.ending = .value () ↔ ∃ e ∈ t.events, e.Reports c (.status .stopped) true
  /-- A run that ends well tells the component to finish once, after the report of the stop. -/
  closed : t.ending = .value () → ∃ before stop finish, t.events = before ++ [stop, finish] ∧
    stop.Reports c (.status .stopped) true ∧ finish.IsFinish ∧ ∀ e ∈ before, ¬ e.IsFinish
  /-- A run that does not end well never tells the component to finish. -/
  unclosed : t.ending ≠ .value () → ∀ e ∈ t.events, ¬ e.IsFinish

/-- The steps of a run that ends as its last standing allows are in order. -/
theorem Steps.orderly {ω : Type} {s t : Standing} {trace : Trace Event ω Unit}
    (h : Steps s trace.events t) (hs : s.stage = .starting)
    (hvalue : trace.ending = .value () → t.stage = .finished)
    (hother : trace.ending ≠ .value () → t.stage.Inner) : Orderly s.config trace := by
  have hending : trace.ending = .value () ↔ t.stage = .finished := by
    by_cases hvalue' : trace.ending = .value ()
    · simp [hvalue', hvalue hvalue']
    · simp [hvalue', (hother hvalue').not_finished]
  have hlast : t.stage ≠ .summarised ∧ t.stage ≠ .quitting ∧ t.stage ≠ .closing := by
    by_cases hvalue' : trace.ending = .value ()
    · simp [hvalue hvalue']
    · have hinner := hother hvalue'
      exact ⟨hinner.not_summarised, hinner.not_quitting, hinner.not_closing⟩
  obtain ⟨hsummarised, hquitting, hclosing⟩ := hlast
  obtain ⟨kinds, hkinds, hsent⟩ := h.reports hs
  obtain ⟨rest, hword⟩ := t.stage.reports_le_beginnings hkinds
  constructor
  case grammar => exact ⟨kinds, _, hsent, List.prefix_append kinds rest, hword⟩
  case polls => exact h.summary_followedBy_poll hs hsummarised
  case stop => simpa using (h.quit_followedBy_stop hs hquitting).exists_iff.symm
  case stall =>
    have hchain := (matches_jobReports_le_recovering hword).1
    exact isChain_of_describes hsent hchain.left_of_append
  case value =>
    rw [hending, (h.stop_followedBy_finish hs hclosing).exists_iff, h.isFinish_iff hs]
  case closed => exact fun hvalue' => h.finished hs (hending.mp hvalue')
  case unclosed =>
    intro hopen e hmem hfinish
    exact hopen (hending.mpr ((h.isFinish_iff hs).mp ⟨e, hmem, hfinish⟩))

section

variable [Resolution] {σ δ π : Type} [VideoSource σ] [Detector δ] [Publisher π]

/-- Every run is in order, whatever the source, the component, the publisher and the polls do. -/
theorem JobRun.orderly_run (e : JobRun σ δ π) (polls : List ControlStatus) :
    Orderly e.config ((run polls).run e) := by
  obtain ⟨t, hsteps, -, hend⟩ := leads_run polls rfl e (standsAt_standing e .starting)
  refine hsteps.orderly rfl ?_ ?_
  · intro hending
    simpa only [hending] using hend
  · intro hopen
    cases hending : ((run polls).run e).ending with
    | value => exact absurd hending hopen
    | failed error =>
      rw [hending] at hend
      exact hend.inner
    | waiting =>
      rw [hending] at hend
      exact hend.inner

end

end LiveDetection
