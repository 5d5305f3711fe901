import LiveDetection.Proofs.Run.Standing
import Mathlib

/-!
# The grammar of the reports

The reports of a job that runs to its end are a word of a regular language: the report that
the job is in progress, then for every segment any number of stalls with their recoveries, at
most one alert and the summary, then the report that the job has stopped. A message is a
report of one kind at most, even if all reports go to the same queue.
-/

namespace LiveDetection

/-! ## Kinds of reports -/

/-- The kinds of reports. -/
inductive ReportKind where
  | status (phase : RunPhase)
  | alert
  | summary
deriving DecidableEq, Repr

namespace ReportKind

/-- A message to a queue is a report of a kind about a job. -/
def Describes (c : JobConfig) : ReportKind → String × Message → Prop
  | status phase, (queue, m) =>
    queue = c.transport.jobStatusQueue ∧
      Wire.toMessage (⟨c.job, phase.label⟩ : JobStatus) = .ok m
  | alert, (queue, m) =>
    queue = c.transport.activityAlertQueue ∧
      ∃ a : ActivityAlert, a.job = c.job ∧ Wire.toMessage a = .ok m
  | summary, (queue, m) =>
    queue = c.transport.summaryReportQueue ∧
      ∃ s : SegmentSummary, s.job = c.job ∧ Wire.toMessage s = .ok m

/-- The only kind of report that a message can be: a summary has a body, and of the others only
a status has a state. -/
def ofMessage? (m : Message) : Option ReportKind :=
  match m.body, m.property? Header.jobStatus with
  | some _, _ => some summary
  | none, some (.string label) =>
    ([RunPhase.inProgress, .stalled, .stopped].find? fun phase => phase.label = label).map status
  | none, _ => some alert

variable {c : JobConfig} {kind kind' : ReportKind} {posting : String × Message}

theorem ofMessage?_of_describes (h : kind.Describes c posting) :
    ofMessage? posting.2 = some kind := by
  obtain ⟨queue, m⟩ := posting
  cases kind with
  | status phase =>
    have hm := h.2
    rw [JobStatus.toMessage_eq] at hm
    cases hm
    have hproperty : Message.property? ⟨(⟨c.job, phase.label⟩ : JobStatus).headerProperties, none⟩
        Header.jobStatus = some (.string phase.label) := by
      simp [Message.property?, JobStatus.headerProperties, Header.jobName, Header.jobNumber,
        Header.jobStatus]
    simp only [ofMessage?, hproperty]
    cases phase <;> decide
  | alert =>
    obtain ⟨-, a, -, hm⟩ := h
    rw [ActivityAlert.toMessage_eq] at hm
    cases hm
    have hproperty : Message.property? ⟨a.headerProperties, none⟩ Header.jobStatus = none := by
      simp [Message.property?, ActivityAlert.headerProperties, Header.jobName, Header.jobNumber,
        Header.segmentNumber, Header.frameIndex, Header.activityDetectTime, Header.jobStatus]
    simp only [ofMessage?, hproperty]
  | summary =>
    obtain ⟨-, s, -, hm⟩ := h
    obtain ⟨body, -, rfl⟩ := SegmentSummary.toMessage_eq_ok.mp hm
    rfl

/-- No message is a report of two kinds, even if all reports go to one queue. -/
theorem describes_unique (h : kind.Describes c posting) (h' : kind'.Describes c posting) :
    kind = kind' :=
  Option.some.inj ((ofMessage?_of_describes h).symm.trans (ofMessage?_of_describes h'))

/-- Of all reports, only a summary has a body. -/
theorem isSome_body_iff (h : kind.Describes c posting) :
    posting.2.body.isSome ↔ kind = .summary := by
  have hkind := ofMessage?_of_describes h
  rw [ofMessage?] at hkind
  cases hbody : posting.2.body with
  | some body =>
    rw [hbody] at hkind
    simpa using hkind.symm
  | none =>
    rw [hbody] at hkind
    have hne : kind ≠ summary := by
      rintro rfl
      split at hkind <;> simp_all
    simpa using hne

theorem describes_phaseMessage (c : JobConfig) (phase : RunPhase) :
    (ReportKind.status phase).Describes c (c.transport.jobStatusQueue, c.phaseMessage phase) :=
  ⟨rfl, JobStatus.toMessage_eq _⟩

end ReportKind

/-- How many summaries there are among some messages: of all reports, only a summary has a
body. -/
def summaryCount (sent : List (String × Message)) : Nat := sent.countP (·.2.body.isSome)

theorem summaryCount_concat {c : JobConfig} {kind : ReportKind} {posting : String × Message}
    (h : kind.Describes c posting) (sent : List (String × Message)) :
    summaryCount (sent ++ [posting]) =
      if kind = .summary then summaryCount sent + 1 else summaryCount sent := by
  have hbody := ReportKind.isSome_body_iff h
  by_cases hkind : kind = .summary
  · simp [summaryCount, List.countP_append, hbody.mpr hkind, hkind]
  · simp [summaryCount, List.countP_append, mt hbody.mp hkind, hkind]

namespace Standing

variable {s : Standing}

theorem describes_alert (s : Standing) (frameIndex : Int32) :
    ReportKind.alert.Describes s.config
      (s.config.transport.activityAlertQueue, ⟨(s.alert frameIndex).headerProperties, none⟩) :=
  ⟨rfl, s.alert frameIndex, rfl, ActivityAlert.toMessage_eq _⟩

theorem describes_summary {tracks : List Track} {m : Message}
    (hm : Wire.toMessage (s.summary tracks) = .ok m) :
    ReportKind.summary.Describes s.config (s.config.transport.summaryReportQueue, m) :=
  ⟨rfl, s.summary tracks, rfl, hm⟩

end Standing

/-! ## The grammar -/

open RegularExpression (char) in
/-- The reports of a stall and of the recovery from it. -/
def stallReports : RegularExpression ReportKind :=
  char (.status .stalled) * char (.status .inProgress)

open RegularExpression (char) in
/-- The reports of a segment. -/
def segmentReports : RegularExpression ReportKind :=
  stallReports.star * (1 + char .alert) * char .summary

open RegularExpression (char) in
/-- The reports of a job. -/
def jobReports : RegularExpression ReportKind :=
  char (.status .inProgress) * segmentReports.star * char (.status .stopped)

open scoped Computability

namespace ReportKind

/-- The words of one report of a kind. -/
def only (kind : ReportKind) : Language ReportKind := {[kind]}

/-- What is reported before a segment. -/
def opening : Language ReportKind := only (.status .inProgress) * segmentReports.matches'∗

/-- What is reported before the tracks of a segment are. -/
def underway : Language ReportKind := opening * stallReports.matches'∗

/-- What begins the reports of a job. -/
def beginnings : Language ReportKind := {kinds | ∃ rest, kinds ++ rest ∈ jobReports.matches'}

theorem matches_stallReports :
    stallReports.matches' = only (.status .stalled) * only (.status .inProgress) := by
  simp [stallReports, only]

theorem matches_segmentReports :
    segmentReports.matches' = stallReports.matches'∗ * (1 + only alert) * only summary := by
  simp [segmentReports, only]

theorem matches_jobReports : jobReports.matches' = opening * only (.status .stopped) := by
  simp [jobReports, opening, only]

theorem opening_le_underway : opening ≤ underway :=
  le_mul_of_one_le_right' one_le_kstar

theorem underway_mul_stallReports_le : underway * stallReports.matches' ≤ underway := by
  rw [underway, mul_assoc]
  exact mul_le_mul_right kstar_mul_le_kstar _

/-- A summary ends the segment, with or without an alert before it. -/
theorem underway_mul_summary_le {found : Language ReportKind} (h : found ≤ 1 + only alert) :
    underway * found * only summary ≤ opening := by
  calc underway * found * only summary
      ≤ underway * (1 + only alert) * only summary := by gcongr
    _ = opening * segmentReports.matches' := by
      rw [matches_segmentReports, underway]
      simp only [mul_assoc]
    _ ≤ opening := by
      rw [opening, mul_assoc]
      exact mul_le_mul_right kstar_mul_le_kstar _

theorem matches_jobReports_le_beginnings : jobReports.matches' ≤ beginnings :=
  fun _ hkinds => ⟨[], by rwa [List.append_nil]⟩

/-- What one more report makes the beginning of a word is the beginning of a word. -/
theorem le_beginnings {reports : Language ReportKind} (kind : ReportKind)
    (h : reports * only kind ≤ beginnings) : reports ≤ beginnings := by
  intro kinds hkinds
  obtain ⟨rest, hword⟩ := h (Language.append_mem_mul hkinds (Set.mem_singleton [kind]))
  exact ⟨[kind] ++ rest, by rwa [← List.append_assoc]⟩

theorem opening_le_beginnings : opening ≤ beginnings := by
  apply le_beginnings (.status .stopped)
  rw [← matches_jobReports]
  exact matches_jobReports_le_beginnings

theorem underway_le_beginnings : underway ≤ beginnings := by
  apply le_beginnings .summary
  calc underway * only summary
      = underway * 1 * only summary := by rw [mul_one]
    _ ≤ opening := underway_mul_summary_le le_sup_left
    _ ≤ beginnings := opening_le_beginnings

/-- The words in which a recovery follows every stall. -/
def recovering : Language ReportKind :=
  {kinds | kinds.IsChain (fun a b => a = .status .stalled → b = .status .inProgress) ∧
    .status .stalled ∉ kinds.getLast?}

theorem recovering_mul_le : recovering * recovering ≤ recovering := by
  rintro kinds hkinds
  obtain ⟨front, ⟨hfront, hcalm⟩, back, ⟨hback, hlast⟩, rfl⟩ := Language.mem_mul.mp hkinds
  refine ⟨List.isChain_append.mpr ⟨hfront, hback, ?_⟩, ?_⟩
  · rintro a ha b - rfl
    exact absurd ha hcalm
  · rw [List.getLast?_append, Option.mem_def, Option.or_eq_some_iff]
    rintro (h | ⟨-, h⟩)
    · exact hlast h
    · exact hcalm h

theorem only_le_recovering {kind : ReportKind} (h : kind ≠ .status .stalled) :
    only kind ≤ recovering := by
  rintro _ rfl
  refine ⟨List.isChain_singleton kind, ?_⟩
  simpa using h

theorem one_le_recovering : 1 ≤ recovering := by
  rintro _ rfl
  exact ⟨List.isChain_nil, by simp⟩

theorem kstar_le_recovering {reports : Language ReportKind} (h : reports ≤ recovering) :
    reports∗ ≤ recovering := by
  refine kstar_le_of_mul_le_left one_le_recovering ?_
  exact (mul_le_mul_right h recovering).trans recovering_mul_le

theorem mul_le_recovering {front back : Language ReportKind} (hfront : front ≤ recovering)
    (hback : back ≤ recovering) : front * back ≤ recovering :=
  (mul_le_mul' hfront hback).trans recovering_mul_le

theorem matches_jobReports_le_recovering : jobReports.matches' ≤ recovering := by
  have hstall : stallReports.matches' ≤ recovering := by
    rw [matches_stallReports]
    rintro _ ⟨_, rfl, _, rfl, rfl⟩
    exact ⟨by simp, by simp⟩
  have hfound : 1 + only alert ≤ recovering :=
    add_le one_le_recovering (only_le_recovering (by simp))
  have hsegment : segmentReports.matches' ≤ recovering := by
    rw [matches_segmentReports]
    exact mul_le_recovering (mul_le_recovering (kstar_le_recovering hstall) hfound)
      (only_le_recovering (by simp))
  rw [matches_jobReports, opening]
  exact mul_le_recovering
    (mul_le_recovering (only_le_recovering (by simp)) (kstar_le_recovering hsegment))
    (only_le_recovering (by simp))

end ReportKind

end LiveDetection
