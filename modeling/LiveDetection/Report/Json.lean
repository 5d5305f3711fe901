import LiveDetection.Report.Basic
import LiveDetection.Track.Json

/-!
# Reports in JSON
-/

namespace LiveDetection

open Json

instance : Form JobIdentity where
  toJson job := record [("job_name", Form.toJson job.name), ("job_number", Form.toJson job.number)]
  ofJson? v := do
    match ← slots? ["job_name", "job_number"] v with
    | [name, number] => return ⟨← name.required, ← number.required⟩
    | _ => none

instance : Form JobStatus where
  toJson s := record [("job", Form.toJson s.job), ("status_message", Form.toJson s.status)]
  ofJson? v := do
    match ← slots? ["job", "status_message"] v with
    | [job, status] => return ⟨← job.required, ← status.required⟩
    | _ => none

instance : Form ActivityAlert where
  toJson a :=
    record
      [("job", Form.toJson a.job), ("segment_number", Form.toJson a.segmentNumber),
        ("frame_index", Form.toJson a.frameIndex),
        ("activity_detect_time", Form.toJson a.detectTime)]
  ofJson? v := do
    match ← slots? ["job", "segment_number", "frame_index", "activity_detect_time"] v with
    | [job, segmentNumber, frameIndex, detectTime] =>
      return ⟨← job.required, ← segmentNumber.required, ← frameIndex.required,
        ← detectTime.required⟩
    | _ => none

instance : Form SegmentSummary where
  toJson s :=
    record
      [("job", Form.toJson s.job), ("segment_number", Form.toJson s.segmentNumber),
        ("tracks", Form.toJson s.tracks)]
  ofJson? v := do
    match ← slots? ["job", "segment_number", "tracks"] v with
    | [job, segmentNumber, tracks] =>
      return ⟨← job.required, ← segmentNumber.required, ← tracks.required⟩
    | _ => none

end LiveDetection
