import LiveDetection.Proofs.Run.Grammar
import LiveDetection.Proofs.Run.Refinement

/-!
# What a run has reported

In every stage of a run, the messages that have gone out are a word of a language that the
stage determines: a step leads from the language of one stage into that of the next. All of
them are beginnings of words of the grammar.
-/

namespace LiveDetection

open ReportKind

/-- What a run may have reported when it has come to a stage. -/
def Stage.reports : Stage → Language ReportKind
  | .starting => 1
  | .reading _ | .reconnecting _ | .found _ => underway
  | .stalled _ | .recovered _ => underway * only (.status .stalled)
  | .alerted _ => underway * only .alert
  | .summarised | .quitting | .broken _ => opening
  | .closing | .finished => jobReports.matches'
  | .refused _ => beginnings

theorem Stage.reports_le_beginnings (stage : Stage) : stage.reports ≤ beginnings := by
  have halert : underway * only .alert ≤ beginnings :=
    le_beginnings .summary ((underway_mul_summary_le le_sup_right).trans opening_le_beginnings)
  have hstall : underway * only (.status .stalled) ≤ beginnings := by
    apply le_beginnings (.status .inProgress)
    rw [mul_assoc, ← matches_stallReports]
    exact underway_mul_stallReports_le.trans underway_le_beginnings
  have hstart : (1 : Language ReportKind) ≤ beginnings := by
    apply le_beginnings (.status .inProgress)
    rw [one_mul]
    exact (le_mul_of_one_le_right' one_le_kstar).trans opening_le_beginnings
  cases stage with
  | starting => exact hstart
  | reading | reconnecting | found => exact underway_le_beginnings
  | stalled | recovered => exact hstall
  | alerted => exact halert
  | summarised | quitting | broken => exact opening_le_beginnings
  | closing | finished => exact matches_jobReports_le_beginnings
  | refused => exact le_rfl

/-- The report that goes out with an event, if one does, leads from what may have been reported
before it to what may have been reported after it. -/
def Grows (s : Standing) (e : Event) (t : Standing) : Prop :=
  ∃ kinds, List.Forall₂ (Describes s.config) kinds e.sent?.toList ∧
    s.stage.reports * {kinds} ≤ t.stage.reports

namespace Grows

variable {s t : Standing} {e : Event}

theorem quiet (he : e.sent? = none) (h : s.stage.reports ≤ t.stage.reports) : Grows s e t := by
  refine ⟨[], ?_, ?_⟩
  · rw [he]
    exact .nil
  · have hone : ({[]} : Language ReportKind) = 1 := rfl
    rw [hone, mul_one]
    exact h

theorem sent {kind : ReportKind} {queue : String} {m : Message}
    (hkind : kind.Describes s.config (queue, m))
    (h : s.stage.reports * only kind ≤ t.stage.reports) : Grows s (.published queue m true) t :=
  ⟨[kind], .cons hkind .nil, h⟩

theorem refused {queue : String} {m : Message} :
    Grows s (.published queue m false) (s.goTo (.refused queue)) :=
  quiet rfl s.stage.reports_le_beginnings

theorem afterReport {kind : ReportKind} {queue : String} {m : Message} {next : Stage}
    (hkind : kind.Describes s.config (queue, m)) (h : s.stage.reports * only kind ≤ next.reports)
    (accepted : Bool) :
    Grows s (.published queue m accepted) (s.afterReport queue accepted next) := by
  cases accepted with
  | false => exact refused
  | true => exact sent hkind h

end Grows

theorem Step.grows {s t : Standing} {e : Event} (h : Step s e t) : Grows s e t := by
  have hunderway : only (.status .inProgress) ≤ underway :=
    (le_mul_of_one_le_right' one_le_kstar).trans opening_le_underway
  have hrecovered : underway * only (.status .stalled) * only (.status .inProgress) ≤ underway := by
    rw [mul_assoc, ← matches_stallReports]
    exact underway_mul_stallReports_le
  cases h with
  | begun h =>
    refine .afterReport (ReportKind.describes_phaseMessage _ _) ?_ _
    rw [h, Stage.reports, one_mul]
    exact hunderway
  | read h | lost h =>
    refine .quiet rfl ?_
    rw [h]
    exact le_rfl
  | retried h he =>
    refine .quiet ?_ le_rfl
    cases he <;> rfl
  | reconnected h =>
    refine .quiet rfl ?_
    generalize s.stage = stage at h
    cases h with
    | early => exact le_rfl
    | late => exact le_rfl
  | stallReported h =>
    refine .afterReport (ReportKind.describes_phaseMessage _ _) ?_ _
    rw [h]
    exact le_rfl
  | recoveryReported h =>
    refine .afterReport (ReportKind.describes_phaseMessage _ _) ?_ _
    rw [h]
    exact hrecovered
  | detected h =>
    refine .quiet rfl ?_
    rw [h]
    exact le_rfl
  | alerted h =>
    refine .afterReport (Standing.describes_alert _ _) ?_ _
    rw [h]
    exact le_rfl
  | summarised h hm =>
    refine .sent (Standing.describes_summary hm) ?_
    generalize s.stage = stage at h
    cases h with
    | quiet =>
      have hle := @underway_mul_summary_le 1 le_sup_left
      rwa [mul_one] at hle
    | active => exact underway_mul_summary_le le_sup_right
  | unsummarised => exact .refused
  | polled h status =>
    refine .quiet rfl ?_
    rw [h]
    cases status with
    | proceed => exact opening_le_underway
    | quit => exact le_rfl
    | fatal => exact le_rfl
  | stopReported h =>
    refine .afterReport (ReportKind.describes_phaseMessage _ _) ?_ _
    rw [h]
    exact matches_jobReports.ge
  | finished h =>
    refine .quiet rfl ?_
    rw [h]
    exact le_rfl

/-- The reports that have gone out are ones that lead to the stage. -/
theorem Steps.reports {s t : Standing} {events : List Event} (h : Steps s events t)
    (hs : s.stage = .starting) :
    ∃ kinds ∈ t.stage.reports, List.Forall₂ (Describes s.config) kinds (sentOf events) := by
  induction h with
  | refl =>
    rw [hs]
    exact ⟨[], rfl, .nil⟩
  | step h hstep ih =>
    obtain ⟨kinds, hkinds, hsent⟩ := ih
    obtain ⟨more, hmore, hle⟩ := hstep.grows
    rw [h.config_eq] at hmore
    refine ⟨kinds ++ more, hle (Language.append_mem_mul hkinds rfl), ?_⟩
    rw [sentOf_append, sentOf_singleton]
    exact List.rel_append hsent hmore

end LiveDetection
