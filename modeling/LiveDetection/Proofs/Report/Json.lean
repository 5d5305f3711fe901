import LiveDetection.Proofs.Json.Map
import LiveDetection.Report.Json

/-!
# Reports in JSON read back

An identity, a status and an alert hold nothing but texts and integers, so each is read from the
members of its form.
-/

namespace LiveDetection

open Json

/-- An identity is read from the two members of its form. -/
theorem JobIdentity.ofJson?_of_slots? {v : Value} {name number : Slot}
    (h : slots? ["job_name", "job_number"] v = some [name, number]) :
    Form.ofJson? v = do return JobIdentity.mk (← name.required) (← number.required) := by
  simp only [Form.ofJson?, h]
  rfl

instance : LawfulForm JobIdentity where
  wellFormed_toJson job :=
    wellFormed_pair (wellFormed_toJson job.name) (wellFormed_toJson job.number)
  ofJson?_toJson job := by
    refine (JobIdentity.ofJson?_of_slots? (slots?_pair (by decide) _ _)).trans ?_
    simp

/-- A status is read from the two members of its form. -/
theorem JobStatus.ofJson?_of_slots? {v : Value} {job status : Slot}
    (h : slots? ["job", "status_message"] v = some [job, status]) :
    Form.ofJson? v = do return JobStatus.mk (← job.required) (← status.required) := by
  simp only [Form.ofJson?, h]
  rfl

instance : LawfulForm JobStatus where
  wellFormed_toJson s := wellFormed_pair (wellFormed_toJson s.job) (wellFormed_toJson s.status)
  ofJson?_toJson s := by
    refine (JobStatus.ofJson?_of_slots? (slots?_pair (by decide) _ _)).trans ?_
    simp

/-- An alert is read from the four members of its form. -/
theorem ActivityAlert.ofJson?_of_slots? {v : Value} {job segmentNumber frameIndex detectTime : Slot}
    (h : slots? ["job", "segment_number", "frame_index", "activity_detect_time"] v =
      some [job, segmentNumber, frameIndex, detectTime]) :
    Form.ofJson? v = do
      return ActivityAlert.mk (← job.required) (← segmentNumber.required)
        (← frameIndex.required) (← detectTime.required) := by
  simp only [Form.ofJson?, h]
  rfl

instance : LawfulForm ActivityAlert where
  wellFormed_toJson a := wellFormed_record (by simp [wellFormed_toJson])
  ofJson?_toJson a := by
    refine (ActivityAlert.ofJson?_of_slots? (slots?_record
      [("job", Form.toJson a.job), ("segment_number", Form.toJson a.segmentNumber),
        ("frame_index", Form.toJson a.frameIndex),
        ("activity_detect_time", Form.toJson a.detectTime)] (by simp))).trans ?_
    simp

end LiveDetection
