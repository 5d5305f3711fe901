import LiveDetection.Launch.Basic
import LiveDetection.Proofs.Run.Order

/-!
# How runs end

A run ends well exactly when the report of the stop goes out. Otherwise its error has one of four
exit codes.
-/

namespace LiveDetection

theorem Steps.reports_stopped_iff {s t : Standing} {events : List Event} (h : Steps s events t)
    (hs : s.stage = .starting) (ht : t.stage ≠ .closing) :
    (∃ x ∈ events, x.Reports s.config (.status .stopped) true) ↔ t.stage = .finished := by
  rw [(h.stop_followedBy_finish hs ht).exists_iff, h.isFinish_iff hs]

theorem MayFail.exitCode_mem {s : Standing} {error : RunError} (h : MayFail s error) :
    error.exitCode ∈ LaunchStep.runJob.exitCodes := by
  cases h <;>
    simp [LaunchStep.exitCodes, RunError.exitCode, JobRun.publishError, JobRun.overflowError,
      JobRun.stallError]

namespace JobRun

variable [Resolution] {σ δ π : Type} [VideoSource σ] [Detector δ] [Publisher π]

theorem ending_eq_value_iff (polls : List ControlStatus) (e : JobRun σ δ π) :
    ((run polls).run e).ending = .value () ↔
      ∃ x ∈ ((run polls).run e).events, x.Reports e.config (.status .stopped) true := by
  obtain ⟨t, hsteps, -, hend⟩ := leads_run polls rfl e (standsAt_standing e .starting)
  have hinner : t.stage.Inner →
      ¬ ∃ x ∈ ((run polls).run e).events, x.Reports e.config (.status .stopped) true :=
    fun h => mt (hsteps.reports_stopped_iff rfl h.not_closing).mp h.not_finished
  cases hending : ((run polls).run e).ending with
  | value =>
    rw [hending] at hend
    exact iff_of_true rfl ((hsteps.reports_stopped_iff rfl (by simp [hend])).mpr hend)
  | failed error =>
    rw [hending] at hend
    exact iff_of_false nofun (hinner hend.inner)
  | waiting =>
    rw [hending] at hend
    exact iff_of_false nofun (hinner hend.inner)

theorem exitCode_of_failed {polls : List ControlStatus} {e : JobRun σ δ π} {error : RunError}
    (h : ((run polls).run e).ending = .failed error) :
    error.exitCode ∈ LaunchStep.runJob.exitCodes := by
  obtain ⟨t, -, -, hend⟩ := leads_run polls rfl e (standsAt_standing e .starting)
  rw [h] at hend
  exact hend.exitCode_mem

end JobRun

end LiveDetection
