import LiveDetection.Clock
import LiveDetection.Failure
import LiveDetection.Report.Basic
import LiveDetection.Text.Blank

/-!
# Job configurations

The settings of one job: its stream, the sizes of its segments and frames, how long the
stream may stall, the detection component, properties handed to it, and where its reports
go. A configuration is checked before a job starts.
-/

namespace LiveDetection

/-- The detection component of a job. -/
structure ComponentConfig where
  name : String := ""
  libraryPath : String
  /-- Without one, the default of the process environment applies. -/
  runDirectory : Option String := none
  /-- Exported into the process environment before the component is loaded. -/
  environment : Properties := .empty
deriving DecidableEq

/-- Where the reports of a job go. -/
structure TransportConfig where
  uri : String
  jobStatusQueue : String
  activityAlertQueue : String
  summaryReportQueue : String
deriving DecidableEq, Repr

namespace JobConfig

/-- The segment size of jobs that set none. -/
def defaultSegmentSize : Int32 := 100

/-- The stall alert threshold of jobs that set none, in milliseconds. -/
def defaultStallAlertThreshold : UInt64 := 10000

/-- The frame width of jobs that set none. -/
def defaultFrameWidth : Int32 := 640

/-- The frame height of jobs that set none. -/
def defaultFrameHeight : Int32 := 480

end JobConfig

/-- The settings of a job. -/
structure JobConfig where
  jobName : String
  jobNumber : Int32
  streamUri : String
  /-- Frames per segment. -/
  segmentSize : Int32 := JobConfig.defaultSegmentSize
  /-- For how many milliseconds the stream may fail before a stall is reported. -/
  stallAlertThreshold : UInt64 := JobConfig.defaultStallAlertThreshold
  /-- After how many milliseconds of stalling the job gives up; without a limit, never. -/
  stallTimeout : Option UInt64 := none
  frameWidth : Int32 := JobConfig.defaultFrameWidth
  frameHeight : Int32 := JobConfig.defaultFrameHeight
  component : ComponentConfig
  jobProperties : Properties := .empty
  mediaProperties : Properties := .empty
  transport : TransportConfig
deriving DecidableEq

namespace JobConfig

/-- What can be wrong with the settings. -/
inductive Fault where
  | blank (field : String)
  | segmentSize (got : Int32)
  | frameSize (width height : Int32)
deriving DecidableEq, Repr

/-- The wording of a fault. -/
def Fault.message : Fault → String
  | blank field => field ++ " must not be empty"
  | segmentSize got => "segment_size must be at least 1, got " ++ toString got.toInt
  | frameSize width height =>
    "frame size must be positive, got " ++ toString width.toInt ++ "x" ++ toString height.toInt

/-- A fault when the text of a field is blank. -/
def requireText (field value : String) : Except Fault Unit :=
  if isBlank value then .error (.blank field) else .ok ()

/-- The first fault of the settings, if there is one. The path of the component library may be
blank, but not empty. -/
def check (c : JobConfig) : Except Fault Unit := do
  requireText "job_name" c.jobName
  requireText "stream_uri" c.streamUri
  if c.segmentSize < 1 then .error (.segmentSize c.segmentSize)
  if c.frameWidth < 1 ∨ c.frameHeight < 1 then .error (.frameSize c.frameWidth c.frameHeight)
  if c.component.libraryPath = "" then .error (.blank "component.library_path")
  requireText "transport.uri" c.transport.uri
  requireText "transport.job_status_queue" c.transport.jobStatusQueue
  requireText "transport.activity_alert_queue" c.transport.activityAlertQueue
  requireText "transport.summary_report_queue" c.transport.summaryReportQueue

/-- The settings, if nothing is wrong with them. -/
def validate (c : JobConfig) : Except RunError JobConfig :=
  match c.check with
  | .ok () => .ok c
  | .error fault => .error (.config fault.message)

/-- The identity of the job in its reports. -/
def job (c : JobConfig) : JobIdentity := ⟨c.jobName, c.jobNumber⟩

variable [Resolution]

/-- The stall alert threshold in ticks. -/
def stallAlertTicks (c : JobConfig) : Nat := millis c.stallAlertThreshold.toNat

/-- The stall timeout in ticks. -/
def stallTimeoutTicks (c : JobConfig) : Option Nat := c.stallTimeout.map (millis ·.toNat)

end JobConfig

end LiveDetection
