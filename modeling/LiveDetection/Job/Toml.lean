import LiveDetection.Job.Config
import LiveDetection.Toml.Setting

/-!
# Job configurations in TOML

The text of a job configuration is a TOML document. Reading it checks the settings.
-/

namespace LiveDetection

open Toml

instance : Setting ComponentConfig where
  ofToml v := do
    let f ← fields
      [("name", check String), ("library_path", check String),
        ("run_directory", check (Option String)), ("environment", check Properties)] v
    return {
      name := ← f.orDefault "name" ""
      libraryPath := ← f.required "library_path"
      runDirectory := ← f.orDefault "run_directory" none
      environment := ← f.orDefault "environment" .empty }

instance : Setting TransportConfig where
  ofToml v := do
    let f ← fields
      [("uri", check String), ("job_status_queue", check String),
        ("activity_alert_queue", check String), ("summary_report_queue", check String)] v
    return {
      uri := ← f.required "uri"
      jobStatusQueue := ← f.required "job_status_queue"
      activityAlertQueue := ← f.required "activity_alert_queue"
      summaryReportQueue := ← f.required "summary_report_queue" }

instance : Setting JobConfig where
  ofToml v := do
    let f ← fields
      [("job_name", check String), ("job_number", check Int32), ("stream_uri", check String),
        ("segment_size", check Int32), ("stall_alert_threshold_ms", check UInt64),
        ("stall_timeout_ms", check (Option UInt64)), ("frame_width", check Int32),
        ("frame_height", check Int32), ("component", check ComponentConfig),
        ("job_properties", check Properties), ("media_properties", check Properties),
        ("transport", check TransportConfig)] v
    return {
      jobName := ← f.required "job_name"
      jobNumber := ← f.required "job_number"
      streamUri := ← f.required "stream_uri"
      segmentSize := ← f.orDefault "segment_size" JobConfig.defaultSegmentSize
      stallAlertThreshold :=
        ← f.orDefault "stall_alert_threshold_ms" JobConfig.defaultStallAlertThreshold
      stallTimeout := ← f.orDefault "stall_timeout_ms" none
      frameWidth := ← f.orDefault "frame_width" JobConfig.defaultFrameWidth
      frameHeight := ← f.orDefault "frame_height" JobConfig.defaultFrameHeight
      component := ← f.required "component"
      jobProperties := ← f.orDefault "job_properties" .empty
      mediaProperties := ← f.orDefault "media_properties" .empty
      transport := ← f.required "transport" }

namespace JobConfig

/-- The settings in a text, checked or not. -/
def ofText (text : String) : Except ConfigTextError JobConfig := do
  let document ← orMalformed (Toml.read? text)
  Setting.ofToml document.toValue

/-- The settings in a text, if nothing is wrong with them. -/
def parse (text : String) : Except RunError JobConfig :=
  match ofText text with
  | .ok config => config.validate
  | .error cause => .error (.configText cause)

theorem exitCode_of_parse {text : String} {e : RunError} (h : parse text = .error e) :
    e.exitCode = .invalidJobConfig := by
  rw [parse] at h
  split at h
  · rw [validate] at h
    split at h
    · cases h
    · cases h
      rfl
  · cases h
    rfl

end JobConfig

end LiveDetection
