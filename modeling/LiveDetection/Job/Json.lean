import LiveDetection.Job.Config
import LiveDetection.Json.Form

/-!
# Job configurations in JSON

All settings are written. Those with a default may be missing when read.
-/

namespace LiveDetection

open Json

instance : Form ComponentConfig where
  toJson c :=
    record
      [("name", Form.toJson c.name), ("library_path", Form.toJson c.libraryPath),
        ("run_directory", Form.toJson c.runDirectory),
        ("environment", Form.toJson c.environment)]
  ofJson? v := do
    match ← slots? ["name", "library_path", "run_directory", "environment"] v with
    | [name, libraryPath, runDirectory, environment] =>
      return ⟨← name.orDefault "", ← libraryPath.required, ← runDirectory.orDefault none,
        ← environment.orDefault .empty⟩
    | _ => none

instance : Form TransportConfig where
  toJson t :=
    record
      [("uri", Form.toJson t.uri), ("job_status_queue", Form.toJson t.jobStatusQueue),
        ("activity_alert_queue", Form.toJson t.activityAlertQueue),
        ("summary_report_queue", Form.toJson t.summaryReportQueue)]
  ofJson? v := do
    match ← slots? ["uri", "job_status_queue", "activity_alert_queue",
        "summary_report_queue"] v with
    | [uri, jobStatusQueue, activityAlertQueue, summaryReportQueue] =>
      return ⟨← uri.required, ← jobStatusQueue.required, ← activityAlertQueue.required,
        ← summaryReportQueue.required⟩
    | _ => none

namespace JobConfig

/-- The names of the settings, in the order of an array of them. -/
def settingNames : List String :=
  ["job_name", "job_number", "stream_uri", "segment_size", "stall_alert_threshold_ms",
    "stall_timeout_ms", "frame_width", "frame_height", "component", "job_properties",
    "media_properties", "transport"]

end JobConfig

instance : Form JobConfig where
  toJson c :=
    record
      [("job_name", Form.toJson c.jobName), ("job_number", Form.toJson c.jobNumber),
        ("stream_uri", Form.toJson c.streamUri), ("segment_size", Form.toJson c.segmentSize),
        ("stall_alert_threshold_ms", Form.toJson c.stallAlertThreshold),
        ("stall_timeout_ms", Form.toJson c.stallTimeout),
        ("frame_width", Form.toJson c.frameWidth), ("frame_height", Form.toJson c.frameHeight),
        ("component", Form.toJson c.component), ("job_properties", Form.toJson c.jobProperties),
        ("media_properties", Form.toJson c.mediaProperties),
        ("transport", Form.toJson c.transport)]
  ofJson? v := do
    match ← slots? JobConfig.settingNames v with
    | [jobName, jobNumber, streamUri, segmentSize, stallAlertThreshold, stallTimeout, frameWidth,
        frameHeight, component, jobProperties, mediaProperties, transport] =>
      return ⟨← jobName.required, ← jobNumber.required, ← streamUri.required,
        ← segmentSize.orDefault JobConfig.defaultSegmentSize,
        ← stallAlertThreshold.orDefault JobConfig.defaultStallAlertThreshold,
        ← stallTimeout.orDefault none, ← frameWidth.orDefault JobConfig.defaultFrameWidth,
        ← frameHeight.orDefault JobConfig.defaultFrameHeight, ← component.required,
        ← jobProperties.orDefault .empty, ← mediaProperties.orDefault .empty,
        ← transport.required⟩
    | _ => none

end LiveDetection
