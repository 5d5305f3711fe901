import LiveDetection.Proofs.Run.Frames
import LiveDetection.Proofs.Run.Shortened
import LiveDetection.Proofs.Track.Repair

/-!
# What the reports of a segment say

The summary of a segment names the job and the segment and holds exactly the repaired tracks
that the component found in it, or none if the component failed. If there are tracks, and only
then, an alert goes out right before the summary; it names the first frame of the earliest
track. The reports of all earlier segments stay as they are, so it is enough to follow the
segment under way.
-/

namespace LiveDetection

/-- An alert announces the tracks of a segment. -/
structure ActivityAlert.Announces (alert : ActivityAlert) (c : JobConfig) (k : Nat)
    (tracks : List Track) : Prop where
  job : alert.job = c.job
  segmentNumber : alert.segmentNumber.toInt = k
  frameIndex_mem : ∃ t ∈ tracks, t.startFrame = alert.frameIndex
  frameIndex_le : ∀ t ∈ tracks, alert.frameIndex ≤ t.startFrame

/-- A message is the alert about the tracks of a segment, detected at a time. -/
def AlertMessage (c : JobConfig) (time : Int64) (k : Nat) (tracks : List Track)
    (posting : String × Message) : Prop :=
  ReportKind.alert.Describes c posting ∧ ∃ alert : ActivityAlert,
    Wire.ofMessage posting.2 = .ok alert ∧ alert.Announces c k tracks ∧ alert.detectTime = time

/-- A message is the summary of a segment, after some other messages. -/
structure SummaryMessage (c : JobConfig) (time : Int64) (k : Nat) (job : VideoJob)
    (result : Except DetectionError (List Track)) (before : List (String × Message))
    (posting : String × Message) (summary : SegmentSummary) : Prop where
  segment : c.IsSegment k job
  described : ReportKind.summary.Describes c posting
  decoded : Wire.ofMessage posting.2 = .ok summary
  jobIdentity : summary.job = c.job
  segmentNumber : summary.segmentNumber.toInt = k
  tracks : summary.tracks = repairTracks (tracksOf result) job.startFrame job.stopFrame
  inside : ∀ t ∈ summary.tracks, t.Consistent ∧ t.Within job.startFrame job.stopFrame
  /-- The message right before the summary is an alert if and only if there are tracks. -/
  alerted : (∃ last ∈ before.getLast?, ReportKind.alert.Describes c last) ↔ summary.tracks ≠ []
  alert : ∀ last ∈ before.getLast?, ReportKind.alert.Describes c last →
    AlertMessage c time k summary.tracks last

/-- Every message with a body is the summary of the segment that its place tells. -/
def Summed (c : JobConfig) (sent : List (String × Message))
    (detections : List (VideoJob × Except DetectionError (List Track))) : Prop :=
  ∀ before posting after, sent = before ++ posting :: after → posting.2.body.isSome →
    ∃ job result summary time, detections[summaryCount before]? = some (job, result) ∧
      SummaryMessage c time (summaryCount before) job result before posting summary

theorem firstActivity?_eq_some {tracks : List Track} {frameIndex : Int32}
    (h : JobRun.firstActivity? tracks = some frameIndex) :
    (∃ t ∈ tracks, t.startFrame = frameIndex) ∧ ∀ t ∈ tracks, frameIndex ≤ t.startFrame := by
  rw [JobRun.firstActivity?, List.min?_eq_some_iff] at h
  simpa using h

namespace Summed

variable {c : JobConfig} {sent : List (String × Message)} {posting : String × Message}
  {detections : List (VideoJob × Except DetectionError (List Track))}

theorem detected (h : Summed c sent detections)
    (more : List (VideoJob × Except DetectionError (List Track))) :
    Summed c sent (detections ++ more) := by
  intro before posting after hsent hbody
  obtain ⟨job, result, summary, time, hk, hsummary⟩ := h before posting after hsent hbody
  have hlt := (List.getElem?_eq_some_iff.mp hk).1
  exact ⟨job, result, summary, time, by rw [List.getElem?_append_left hlt, hk], hsummary⟩

/-- One more message is in order if it is, in case it has a body, the next summary. -/
theorem concat (h : Summed c sent detections)
    (hnext : posting.2.body.isSome → ∃ job result summary time,
      detections[summaryCount sent]? = some (job, result) ∧
        SummaryMessage c time (summaryCount sent) job result sent posting summary) :
    Summed c (sent ++ [posting]) detections := by
  intro before posting' after hsent hbody
  rcases concat_eq_append_cons hsent with ⟨rest, hrest, -⟩ | ⟨rfl, rfl, -⟩
  · exact h before posting' rest hrest hbody
  · exact hnext hbody

end Summed

/-! ## The segment under way -/

/-- The stage is before or behind the reports of a segment. -/
def Stage.Idle : Stage → Prop
  | .found _ | .alerted _ | .refused _ => False
  | _ => True

theorem Stage.Retries.idle {stage : Stage} {next : Frame → Stage} (h : stage.Retries next) :
    stage.Idle := by
  cases h <;> trivial

theorem Stage.Retries.idle_next {stage : Stage} {next : Frame → Stage} (h : stage.Retries next)
    (frame : Frame) : (next frame).Idle := by
  cases h <;> trivial

/-- What a step does to the reports. -/
inductive Reporting (s : Standing) (e : Event) (t : Standing) : Prop
  /-- No message goes out. -/
  | quiet (hsent : e.sent? = none) (hdetection : e.detection? = none)
    (hidle : (∀ queue, t.stage ≠ .refused queue) → s.stage.Idle ∧ t.stage.Idle)
    (hnumber : t.segmentNumber = s.segmentNumber)
  /-- A state of the job goes out. -/
  | status (phase : RunPhase) {queue : String} {m : Message} (he : e = .published queue m true)
    (hm : (ReportKind.status phase).Describes s.config (queue, m))
    (hs : s.stage.Idle) (ht : t.stage.Idle) (hnumber : t.segmentNumber = s.segmentNumber)
  /-- The component has answered. -/
  | detected (hs : s.stage.Idle) {stop : Int32} {frames : List Frame}
    (result : Except DetectionError (List Track))
    (he : e = .detected (s.videoJob stop frames) result)
    (ht : t.stage = .found (repairTracks (tracksOf result) s.nextFrame stop))
    (hnumber : t.segmentNumber = s.segmentNumber)
  /-- An alert goes out. -/
  | alerted {tracks : List Track} (hs : s.stage = .found tracks) {frameIndex : Int32}
    (hfirst : JobRun.firstActivity? tracks = some frameIndex) {queue : String} {m : Message}
    (he : e = .published queue m true)
    (hm : ReportKind.alert.Describes s.config (queue, m))
    (hdecoded : Wire.ofMessage m = .ok (s.alert frameIndex))
    (htime : t.timeOfDay = s.timeOfDay)
    (ht : t.stage = .alerted tracks) (hnumber : t.segmentNumber = s.segmentNumber)
  /-- A summary goes out. -/
  | summarised {tracks : List Track} (hs : s.stage.Summarises tracks) {queue : String}
    {m : Message} (he : e = .published queue m true)
    (hm : ReportKind.summary.Describes s.config (queue, m))
    (hdecoded : Wire.ofMessage m = .ok (s.summary tracks))
    (ht : t.stage = .summarised) (hnumber : t.segmentNumber = s.segmentNumber + 1)

/-- A state of the job goes out or is refused. -/
theorem Reporting.afterStatus {s : Standing} {next : Stage} (hs : s.stage.Idle) (ht : next.Idle)
    (phase : RunPhase) (accepted : Bool) :
    Reporting s (.phaseReport s.config phase accepted)
      (s.afterReport s.config.transport.jobStatusQueue accepted next) := by
  cases accepted with
  | false => exact .quiet rfl rfl (fun hopen => absurd rfl (hopen _)) rfl
  | true => exact .status phase rfl (ReportKind.describes_phaseMessage _ _) hs ht rfl

theorem Step.reporting {s t : Standing} {e : Event} (h : Step s e t) : Reporting s e t := by
  cases h with
  | begun h accepted | stallReported h accepted | recoveryReported h accepted
  | stopReported h accepted =>
    refine .afterStatus ?_ ?_ _ accepted
    · rw [h]
      trivial
    · trivial
  | read h | lost h | finished h =>
    refine .quiet rfl rfl (fun _ => ⟨?_, trivial⟩) rfl
    rw [h]
    trivial
  | retried h he =>
    refine .quiet ?_ he.detection?_eq_none (fun _ => ⟨h.idle, h.idle⟩) rfl
    cases he <;> rfl
  | reconnected h frame => exact .quiet rfl rfl (fun _ => ⟨h.idle, h.idle_next frame⟩) rfl
  | detected h hfull hstop result =>
    refine .detected ?_ result rfl rfl rfl
    rw [h]
    trivial
  | @alerted tracks h frameIndex hfirst accepted =>
    cases accepted with
    | false => exact .quiet rfl rfl (fun hopen => absurd rfl (hopen _)) rfl
    | true =>
      exact .alerted h hfirst rfl (Standing.describes_alert s frameIndex)
        (ActivityAlert.ofMessage_headerProperties _ _) rfl rfl rfl
  | summarised h hm =>
    obtain ⟨body, hbody, rfl⟩ := SegmentSummary.toMessage_eq_ok.mp hm
    exact .summarised h rfl (Standing.describes_summary hm)
      (SegmentSummary.ofMessage_of_encode? hbody) rfl rfl
  | unsummarised => exact .quiet rfl rfl (fun hopen => absurd rfl (hopen _)) rfl
  | polled h status =>
    refine .quiet rfl rfl (fun _ => ⟨?_, ?_⟩) rfl
    · rw [h]
      trivial
    · cases status <;> trivial

section

variable (c : JobConfig) (time : Int64) (sent : List (String × Message))
  (detections : List (VideoJob × Except DetectionError (List Track)))

/-- The last message is no alert. -/
def Unalerted : Prop := ∀ last ∈ sent.getLast?, ¬ ReportKind.alert.Describes c last

/-- The latest answer of the component is the one that is still to be reported. -/
def Found (tracks : List Track) : Prop :=
  ∃ earlier job result, detections = earlier ++ [(job, result)] ∧
    earlier.length = summaryCount sent ∧
    tracks = repairTracks (tracksOf result) job.startFrame job.stopFrame

/-- How the reports so far relate to the answers of the component, by the stage of the run. -/
def Stage.Accounts : Stage → Prop
  | .found tracks => Found sent detections tracks ∧ Unalerted c sent
  | .alerted tracks => Found sent detections tracks ∧ tracks ≠ [] ∧
    ∃ last ∈ sent.getLast?, AlertMessage c time (summaryCount sent) tracks last
  | .refused _ => True
  | _ => detections.length = summaryCount sent ∧ Unalerted c sent

variable {c time sent detections}

theorem unalerted_concat {kind : ReportKind} {posting : String × Message}
    (h : kind.Describes c posting) (hkind : kind ≠ .alert) : Unalerted c (sent ++ [posting]) := by
  intro last hlast halert
  obtain rfl : posting = last := by simpa using hlast
  exact hkind (ReportKind.describes_unique h halert)

theorem Stage.accounts_of_idle {stage : Stage} (h : stage.Idle) :
    stage.Accounts c time sent detections ↔
      detections.length = summaryCount sent ∧ Unalerted c sent := by
  cases stage with
  | found | alerted | refused => cases h
  | _ => rfl

end

/-- The reports so far are right, and what is still to be reported is known. -/
structure Accounted (c : JobConfig) (sent : List (String × Message))
    (detections : List (VideoJob × Except DetectionError (List Track))) (s : Standing) : Prop where
  summed : Summed c sent detections
  segmentNumber : s.segmentNumber.toInt = summaryCount sent
  accounts : s.stage.Accounts c s.timeOfDay sent detections

namespace Accounted

variable {c : JobConfig} {sent : List (String × Message)}
  {detections : List (VideoJob × Except DetectionError (List Track))} {s t : Standing} {e : Event}
  {posting : String × Message} {tracks : List Track}

theorem segmentNumber_eq (h : Accounted c sent detections s) :
    s.segmentNumber = Int32.ofNat (summaryCount sent) := by
  rw [← Int32.ofInt_toInt s.segmentNumber, h.segmentNumber]
  rfl

theorem quiet (h : Accounted c sent detections s)
    (hidle : (∀ queue, t.stage ≠ .refused queue) → s.stage.Idle ∧ t.stage.Idle)
    (hnumber : t.segmentNumber = s.segmentNumber) : Accounted c sent detections t := by
  refine ⟨h.summed, hnumber ▸ h.segmentNumber, ?_⟩
  by_cases hopen : ∀ queue, t.stage ≠ .refused queue
  · obtain ⟨hs, ht⟩ := hidle hopen
    exact (Stage.accounts_of_idle ht).mpr ((Stage.accounts_of_idle hs).mp h.accounts)
  · obtain ⟨queue, hqueue⟩ := not_forall_not.mp hopen
    rw [hqueue]
    trivial

theorem status (h : Accounted c sent detections s) {phase : RunPhase}
    (hm : (ReportKind.status phase).Describes c posting) (hs : s.stage.Idle) (ht : t.stage.Idle)
    (hnumber : t.segmentNumber = s.segmentNumber) :
    Accounted c (sent ++ [posting]) detections t := by
  have hcount : summaryCount (sent ++ [posting]) = summaryCount sent := summaryCount_concat hm sent
  refine ⟨h.summed.concat fun hbody => ?_, ?_, ?_⟩
  · simp [ReportKind.isSome_body_iff hm] at hbody
  · rw [hnumber, h.segmentNumber, hcount]
  · rw [Stage.accounts_of_idle ht, hcount]
    have haccounts := (Stage.accounts_of_idle hs).mp h.accounts
    exact ⟨haccounts.1, unalerted_concat hm (by simp)⟩

theorem detected (h : Accounted c sent detections s) {job : VideoJob}
    {result : Except DetectionError (List Track)} (hs : s.stage.Idle)
    (ht : t.stage = .found (repairTracks (tracksOf result) job.startFrame job.stopFrame))
    (hnumber : t.segmentNumber = s.segmentNumber) :
    Accounted c sent (detections ++ [(job, result)]) t := by
  refine ⟨h.summed.detected _, hnumber ▸ h.segmentNumber, ?_⟩
  have haccounts := (Stage.accounts_of_idle hs).mp h.accounts
  rw [ht]
  exact ⟨⟨detections, job, result, rfl, haccounts.1, rfl⟩, haccounts.2⟩

theorem alerted (h : Accounted c sent detections s) (hs : s.stage = .found tracks)
    {frameIndex : Int32} (hfirst : JobRun.firstActivity? tracks = some frameIndex)
    (hm : ReportKind.alert.Describes c posting) (hjob : s.config.job = c.job)
    (hdecoded : Wire.ofMessage posting.2 = .ok (s.alert frameIndex))
    (htime : t.timeOfDay = s.timeOfDay) (ht : t.stage = .alerted tracks)
    (hnumber : t.segmentNumber = s.segmentNumber) :
    Accounted c (sent ++ [posting]) detections t := by
  have hcount : summaryCount (sent ++ [posting]) = summaryCount sent := summaryCount_concat hm sent
  obtain ⟨⟨track, htrack, hframe⟩, hleast⟩ := firstActivity?_eq_some hfirst
  have haccounts := h.accounts
  rw [hs] at haccounts
  obtain ⟨⟨earlier, job, result, hdetections, hlength, htracks⟩, -⟩ := haccounts
  refine ⟨h.summed.concat fun hbody => ?_, ?_, ?_⟩
  · simp [ReportKind.isSome_body_iff hm] at hbody
  · rw [hnumber, h.segmentNumber, hcount]
  · rw [ht]
    refine ⟨⟨earlier, job, result, hdetections, hcount ▸ hlength, htracks⟩,
      List.ne_nil_of_mem htrack, posting, by simp, hm, s.alert frameIndex, hdecoded, ?_,
      htime.symm⟩
    exact ⟨hjob, hcount ▸ h.segmentNumber, ⟨track, htrack, hframe⟩, hleast⟩

theorem found (h : Accounted c sent detections s) (hs : s.stage.Summarises tracks) :
    Found sent detections tracks := by
  have haccounts := h.accounts
  obtain ⟨hquiet, rfl⟩ | hactive := hs.cases
  · rw [hquiet] at haccounts
    exact haccounts.1
  · rw [hactive] at haccounts
    exact haccounts.1

/-- Right before a summary, there is an alert if there are tracks, and otherwise there is none. -/
theorem alert_iff (h : Accounted c sent detections s) (hs : s.stage.Summarises tracks) :
    ((∃ last ∈ sent.getLast?, ReportKind.alert.Describes c last) ↔ tracks ≠ []) ∧
    ∀ last ∈ sent.getLast?, ReportKind.alert.Describes c last →
      AlertMessage c s.timeOfDay (summaryCount sent) tracks last := by
  have haccounts := h.accounts
  obtain ⟨hquiet, rfl⟩ | hactive := hs.cases
  · rw [hquiet] at haccounts
    obtain ⟨-, hunalerted⟩ := haccounts
    refine ⟨⟨?_, fun hne => absurd rfl hne⟩, fun last hlast halert => ?_⟩
    · rintro ⟨last, hlast, halert⟩
      exact absurd halert (hunalerted last hlast)
    · exact absurd halert (hunalerted last hlast)
  · rw [hactive] at haccounts
    obtain ⟨-, htracks, last, hlast, halert⟩ := haccounts
    refine ⟨⟨fun _ => htracks, fun _ => ⟨last, hlast, halert.1⟩⟩, fun other hother _ => ?_⟩
    obtain rfl : last = other := Option.some.inj (hlast.symm.trans hother)
    exact halert

/-- The summary of the segment under way is the message that its place tells. -/
theorem summaryMessage (h : Accounted c sent detections s) (hs : s.stage.Summarises tracks)
    (hsegments : ∀ k job result, detections[k]? = some (job, result) → c.IsSegment k job)
    (hm : ReportKind.summary.Describes c posting) (hjob : s.config.job = c.job)
    (hdecoded : Wire.ofMessage posting.2 = .ok (s.summary tracks)) :
    detections.length = summaryCount sent + 1 ∧
    ∃ job result, detections[summaryCount sent]? = some (job, result) ∧
      SummaryMessage c s.timeOfDay (summaryCount sent) job result sent posting
        (s.summary tracks) := by
  obtain ⟨halerted, halert⟩ := h.alert_iff hs
  obtain ⟨earlier, job, result, rfl, hlength, htracks⟩ := h.found hs
  have hk : (earlier ++ [(job, result)])[summaryCount sent]? = some (job, result) := by
    rw [← hlength, List.getElem?_concat_length]
  refine ⟨by simp [hlength], job, result, hk, ?_⟩
  constructor
  case segment => exact hsegments _ _ _ hk
  case described => exact hm
  case decoded => exact hdecoded
  case jobIdentity => exact hjob
  case segmentNumber => exact h.segmentNumber
  case tracks => exact htracks
  case inside => exact fun t ht => consistent_of_mem_repairTracks (htracks ▸ ht)
  case alerted => exact halerted
  case alert => exact halert

theorem summarised (h : Accounted c sent detections s) (hs : s.stage.Summarises tracks)
    (hsegments : ∀ k job result, detections[k]? = some (job, result) → c.IsSegment k job)
    (hfew : detections.length < 2 ^ 31)
    (hm : ReportKind.summary.Describes c posting) (hjob : s.config.job = c.job)
    (hdecoded : Wire.ofMessage posting.2 = .ok (s.summary tracks))
    (ht : t.stage = .summarised) (hnumber : t.segmentNumber = s.segmentNumber + 1) :
    Accounted c (sent ++ [posting]) detections t := by
  have hcount : summaryCount (sent ++ [posting]) = summaryCount sent + 1 :=
    summaryCount_concat hm sent
  obtain ⟨hlength, job, result, hk, hsummary⟩ := h.summaryMessage hs hsegments hm hjob hdecoded
  refine ⟨h.summed.concat fun _ => ⟨job, result, s.summary tracks, _, hk, hsummary⟩, ?_, ?_⟩
  · rw [hnumber, Int32.toInt_add, h.segmentNumber, hcount]
    exact Int.bmod_eq_of_le (by simp; omega) (by simp; omega)
  · have hidle : t.stage.Idle := ht ▸ trivial
    rw [Stage.accounts_of_idle hidle, hcount]
    exact ⟨hlength, unalerted_concat hm (by simp)⟩

theorem step {past : List Event} (h : Accounted c (sentOf past) (detectionsOf past) s)
    (hcarved : Carved c past s) (hc : s.config = c) (hsize : 0 < c.segmentSize)
    (hstep : Step s e t) :
    Accounted c (sentOf (past ++ [e])) (detectionsOf (past ++ [e])) t := by
  subst hc
  rw [sentOf_append, sentOf_singleton, detectionsOf_append, detectionsOf_singleton]
  cases hstep.reporting with
  | quiet hsent hdetection hidle hnumber =>
    simp only [hsent, hdetection, Option.toList_none, List.append_nil]
    exact h.quiet hidle hnumber
  | status phase he hm hs ht hnumber =>
    subst he
    simpa [Event.sent?, Event.detection?] using h.status hm hs ht hnumber
  | @detected hs stop frames result he ht hnumber =>
    subst he
    have hstage : t.stage = .found (repairTracks (tracksOf result)
      (s.videoJob stop frames).startFrame (s.videoJob stop frames).stopFrame) := ht
    simpa [Event.sent?, Event.detection?] using h.detected hs hstage hnumber
  | alerted hs hfirst he hm hdecoded htime ht hnumber =>
    subst he
    simpa [Event.sent?, Event.detection?] using
      h.alerted hs hfirst hm rfl hdecoded htime ht hnumber
  | summarised hs he hm hdecoded ht hnumber =>
    subst he
    simpa [Event.sent?, Event.detection?] using h.summarised hs hcarved.segments
      (hcarved.length_lt hsize) hm rfl hdecoded ht hnumber

end Accounted

/-- The reports of a run that starts at the first frame and the first segment are right. -/
theorem Steps.accounted {s t : Standing} {events : List Event} (h : Steps s events t)
    (hs : s.stage = .starting) (hframe : s.nextFrame = 0) (hnumber : s.segmentNumber = 0)
    (hsize : 0 < s.config.segmentSize) :
    Accounted s.config (sentOf events) (detectionsOf events) t := by
  induction h with
  | refl =>
    refine ⟨?_, ?_, ?_⟩
    · intro before posting after hsent
      simp [sentOf] at hsent
    · simp [hnumber, sentOf, summaryCount]
    · have hidle : s.stage.Idle := hs ▸ trivial
      rw [Stage.accounts_of_idle hidle]
      simp [sentOf, detectionsOf, summaryCount, Unalerted]
  | step h hstep ih =>
    exact ih.step (h.carved hs hframe (Int32.le_of_lt hsize)) h.config_eq hsize hstep

/-- The stage is one between the summary of a segment and what follows it. -/
def Stage.Settled (stage : Stage) : Prop := stage = .summarised ∨ stage = .quitting

/-- Only a poll and a summary that goes out lead to such a stage. -/
theorem Step.of_settled {s t : Standing} {e : Event} (h : Step s e t) (ht : t.stage.Settled) :
    (s.stage = .summarised ∧ ∃ status, e = .polled status ∧ t = s.goTo (.afterPoll status)) ∨
      ∃ tracks m, s.stage.Summarises tracks ∧ Wire.toMessage (s.summary tracks) = .ok m ∧
        e = .published s.config.transport.summaryReportQueue m true ∧
        t.epochMillis ⟨s.segmentNumber, t.now⟩ = s.timeOfDay := by
  cases h with
  | polled h status => exact .inl ⟨h, status, rfl, rfl⟩
  | summarised h hm => exact .inr ⟨_, _, h, hm, rfl, rfl⟩
  | begun h accepted | stallReported h accepted | recoveryReported h accepted
  | stopReported h accepted | alerted h hfirst accepted =>
    cases accepted <;> simp [Stage.Settled] at ht
  | retried h =>
    obtain ⟨frames, ⟨hs, -⟩ | ⟨hs, -⟩⟩ := h.cases <;> simp [Stage.Settled, hs] at ht
  | reconnected h frame =>
    obtain ⟨frames, ⟨-, hnext⟩ | ⟨-, hnext⟩⟩ := h.cases <;> simp [Stage.Settled, hnext] at ht
  | read | lost | detected | unsummarised | finished => simp [Stage.Settled] at ht

/-- The last message of a run between two segments is a summary, and an alert right before it
bears the time of the run. -/
theorem Steps.latest {s t : Standing} {events : List Event} (h : Steps s events t)
    (hs : s.stage = .starting) (hframe : s.nextFrame = 0) (hnumber : s.segmentNumber = 0)
    (hsize : 0 < s.config.segmentSize) (ht : t.stage.Settled) :
    ∃ before posting job result summary, sentOf events = before ++ [posting] ∧
      SummaryMessage s.config (t.epochMillis ⟨Int32.ofNat (summaryCount before), t.now⟩)
        (summaryCount before) job result before posting summary := by
  induction h with
  | refl => simp [hs, Stage.Settled] at ht
  | @step past now next e h hstep ih =>
    obtain ⟨hnow, status, rfl, rfl⟩ | ⟨tracks, m, hsummarises, hm, rfl, htime⟩ :=
      hstep.of_settled ht
    · obtain ⟨before, posting, job, result, summary, hsent, hsummary⟩ := ih (.inl hnow)
      refine ⟨before, posting, job, result, summary, ?_, hsummary⟩
      rw [sentOf_append, hsent]
      exact List.append_nil _
    · have hcarved := h.carved hs hframe (Int32.le_of_lt hsize)
      have haccounted := h.accounted hs hframe hnumber hsize
      obtain ⟨body, hbody, rfl⟩ := SegmentSummary.toMessage_eq_ok.mp hm
      have hdescribes := Standing.describes_summary hm
      rw [h.config_eq] at hdescribes
      obtain ⟨-, job, result, -, hsummary⟩ := haccounted.summaryMessage hsummarises
        hcarved.segments hdescribes (congrArg JobConfig.job h.config_eq)
        (SegmentSummary.ofMessage_of_encode? hbody)
      rw [← htime, haccounted.segmentNumber_eq] at hsummary
      refine ⟨sentOf past, _, job, result, _, ?_, hsummary⟩
      rw [sentOf_append, h.config_eq]
      rfl

/-- A summary that is right for two times is so with either of them. -/
theorem SummaryMessage.dated {c : JobConfig} {time time' : Int64} {k : Nat} {job job' : VideoJob}
    {result result' : Except DetectionError (List Track)} {before : List (String × Message)}
    {posting : String × Message} {summary summary' : SegmentSummary}
    (h : SummaryMessage c time k job result before posting summary)
    (h' : SummaryMessage c time' k job' result' before posting summary') :
    SummaryMessage c time' k job result before posting summary := by
  have hsame : summary = summary' := Except.ok.inj (h.decoded.symm.trans h'.decoded)
  exact { h with alert := hsame ▸ h'.alert }

section

variable [Resolution] {σ δ π : Type} [VideoSource σ] [Detector δ] [Publisher π]

/-- The time of day that a run is told when it reports the segment of a number. The time of the run
stands still from there to the poll, so it is that at the end of the run that is asked to quit
then. -/
def JobRun.reportTime (e : JobRun σ δ π) (polls : List ControlStatus) (k : Nat) : Int64 :=
  e.epochMillis ⟨Int32.ofNat k, ((run (polls.take k)).run e).world.stream.now⟩

/-- Every message with a body that a run sends out is the summary of the segment whose number is
the number of such messages before it: it holds the repaired tracks of that segment, and right
before it goes out an alert if and only if there are any, with the time at which the segment is
reported. -/
theorem JobRun.summaryMessage_of_sent {e : JobRun σ δ π} (hframe : e.nextFrame = 0)
    (hnumber : e.segmentNumber = 0) (hsize : 0 < e.config.segmentSize)
    (polls : List ControlStatus) {before after : List (String × Message)}
    {posting : String × Message}
    (hsent : sentOf ((run polls).run e).events = before ++ posting :: after)
    (hbody : posting.2.body.isSome) :
    ∃ job result summary,
      (detectionsOf ((run polls).run e).events)[summaryCount before]? = some (job, result) ∧
      SummaryMessage e.config (e.reportTime polls (summaryCount before)) (summaryCount before) job
        result before posting summary := by
  obtain ⟨t, hsteps, -⟩ := leads_run polls rfl e (standsAt_standing e .starting)
  obtain ⟨job, result, summary, time, hk, hsummary⟩ :=
    (hsteps.accounted rfl hframe hnumber hsize).summed before posting after hsent hbody
  refine ⟨job, result, summary, hk, ?_⟩
  -- the run that is asked to quit after this segment ends with the same summary
  obtain ⟨events, world, hrun, hshort, hstream⟩ := run_take polls hsent hbody
  obtain ⟨u, hsteps, hat, hquitting⟩ :=
    leads_segments (polls.take (summaryCount before)) rfl e (standsAt_standing e .starting)
  rw [hrun] at hsteps hat hquitting
  obtain ⟨before', posting', job', result', summary', hshort', hlatest⟩ :=
    hsteps.latest rfl hframe hnumber hsize (.inr hquitting)
  obtain ⟨rfl, hposting⟩ := List.append_inj' (hshort.symm.trans hshort') rfl
  obtain rfl := List.singleton_inj.mp hposting
  have htime : u.epochMillis ⟨Int32.ofNat (summaryCount before), u.now⟩ =
      e.reportTime polls (summaryCount before) := by
    rw [reportTime, hstream, hat.now, hsteps.epochMillis_eq]
    rfl
  exact htime ▸ hsummary.dated hlatest

end

/-- The first segment of the sample run has an alert and a summary. -/
theorem summaryMessage_sampleRun : ∃ before posting after job result summary,
    sentOf ((JobRun.run [.proceed]).run sampleRun).events = before ++ posting :: after ∧
    (detectionsOf ((JobRun.run [.proceed]).run sampleRun).events)[0]? = some (job, result) ∧
    SummaryMessage sampleRun.config (sampleRun.reportTime [.proceed] 0) 0 job result before posting
      summary ∧
    summary.tracks ≠ [] := by
  let sent := sentOf ((JobRun.run [.proceed]).run sampleRun).events
  have hthird : sent[2]?.any (·.2.body.isSome) := by decide +kernel
  obtain ⟨posting, hposting, hbody⟩ := (Option.any_eq_true _ _).mp hthird
  obtain ⟨hlength, rfl⟩ := List.getElem?_eq_some_iff.mp hposting
  have hsent : sent = sent.take 2 ++ sent[2] :: sent.drop 3 := by
    rw [List.getElem_cons_drop, List.take_append_drop]
  have hcount : summaryCount (sent.take 2) = 0 := by decide +kernel
  obtain ⟨job, result, summary, hk, hsummary⟩ :=
    JobRun.summaryMessage_of_sent rfl rfl (by decide) [.proceed] hsent hbody
  rw [hcount] at hk hsummary
  let alert : ActivityAlert := ⟨⟨"lobby", 3⟩, 0, 0, 1⟩
  have hlast : (sent.take 2).getLast? = some ("alerts", ⟨alert.headerProperties, none⟩) := by
    decide +kernel
  have hdescribes : ReportKind.alert.Describes sampleRun.config
      ("alerts", ⟨alert.headerProperties, none⟩) :=
    ⟨rfl, alert, rfl, alert.toMessage_eq⟩
  exact ⟨_, _, _, job, result, summary, hsent, hk, hsummary,
    hsummary.alerted.mp ⟨_, hlast, hdescribes⟩⟩

end LiveDetection
