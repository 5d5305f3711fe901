import LiveDetection.Detector.Json
import LiveDetection.Job.Json
import LiveDetection.Proofs.Report.Json

/-!
# Job configurations in JSON read back

All settings of a configuration are written, so none of them is read as its default. A text that
is accepted may spell a value in many ways. What is written for the value is one of them, and it
is written for the value that is read from it.
-/

namespace LiveDetection

open Json

namespace Json

instance : LawfulForm UInt64 where
  wellFormed_toJson n := wellFormed_integerValue n.toNat
  ofJson?_toJson n := by
    show (integer? (integerValue n.toNat)).bind uint64OfInt? = some n
    rw [integer?_integerValue, Option.bind_some, uint64OfInt?_toNat]

instance : NeverNull UInt64 where
  toJson_ne_null n := by simp [Form.toJson, integerValue]

instance : NeverNull String where
  toJson_ne_null _ h := by cases h

/-- A member with a default that is given is read as what is given. -/
@[simp] theorem orDefault_given_toJson {α : Type} [Form α] [LawfulForm α] (default a : α) :
    (Slot.given (Form.toJson a)).orDefault default = some a :=
  ofJson?_toJson a

end Json

/-- A name is that of the kind that it is the name of. -/
@[simp] theorem MediaKind.ofName?_name (kind : MediaKind) : ofName? kind.name = some kind := by
  cases kind <;> decide

instance : LawfulForm MediaKind where
  wellFormed_toJson kind := wellFormed_toJson kind.name
  ofJson?_toJson kind := by
    have hcase : case? (Form.toJson kind) = some kind.name := case?_toJson kind.name
    simp [Form.ofJson?, hcase]

/-- A component is read from the four members of its form. -/
theorem ComponentConfig.ofJson?_of_slots? {v : Value}
    {name libraryPath runDirectory environment : Slot}
    (h : slots? ["name", "library_path", "run_directory", "environment"] v =
      some [name, libraryPath, runDirectory, environment]) :
    Form.ofJson? v = do
      return ComponentConfig.mk (← name.orDefault "") (← libraryPath.required)
        (← runDirectory.orDefault none) (← environment.orDefault .empty) := by
  simp only [Form.ofJson?, h]
  rfl

instance : LawfulForm ComponentConfig where
  wellFormed_toJson c := wellFormed_record (by simp [wellFormed_toJson])
  ofJson?_toJson c := by
    refine (ComponentConfig.ofJson?_of_slots? (slots?_record
      [("name", Form.toJson c.name), ("library_path", Form.toJson c.libraryPath),
        ("run_directory", Form.toJson c.runDirectory),
        ("environment", Form.toJson c.environment)] (by simp))).trans ?_
    simp

/-- A transport is read from the four members of its form. -/
theorem TransportConfig.ofJson?_of_slots? {v : Value}
    {uri jobStatusQueue activityAlertQueue summaryReportQueue : Slot}
    (h : slots? ["uri", "job_status_queue", "activity_alert_queue", "summary_report_queue"] v =
      some [uri, jobStatusQueue, activityAlertQueue, summaryReportQueue]) :
    Form.ofJson? v = do
      return TransportConfig.mk (← uri.required) (← jobStatusQueue.required)
        (← activityAlertQueue.required) (← summaryReportQueue.required) := by
  simp only [Form.ofJson?, h]
  rfl

instance : LawfulForm TransportConfig where
  wellFormed_toJson t := wellFormed_record (by simp [wellFormed_toJson])
  ofJson?_toJson t := by
    refine (TransportConfig.ofJson?_of_slots? (slots?_record
      [("uri", Form.toJson t.uri), ("job_status_queue", Form.toJson t.jobStatusQueue),
        ("activity_alert_queue", Form.toJson t.activityAlertQueue),
        ("summary_report_queue", Form.toJson t.summaryReportQueue)] (by simp))).trans ?_
    simp

/-- A configuration is read from the twelve members of its form. -/
theorem JobConfig.ofJson?_of_slots? {v : Value}
    {jobName jobNumber streamUri segmentSize stallAlertThreshold stallTimeout frameWidth
      frameHeight component jobProperties mediaProperties transport : Slot}
    (h : slots? settingNames v = some [jobName, jobNumber, streamUri, segmentSize,
      stallAlertThreshold, stallTimeout, frameWidth, frameHeight, component, jobProperties,
      mediaProperties, transport]) :
    Form.ofJson? v = do
      return JobConfig.mk (← jobName.required) (← jobNumber.required)
        (← streamUri.required) (← segmentSize.orDefault defaultSegmentSize)
        (← stallAlertThreshold.orDefault defaultStallAlertThreshold) (← stallTimeout.orDefault none)
        (← frameWidth.orDefault defaultFrameWidth) (← frameHeight.orDefault defaultFrameHeight)
        (← component.required) (← jobProperties.orDefault .empty)
        (← mediaProperties.orDefault .empty) (← transport.required) := by
  simp only [Form.ofJson?, h]
  rfl

instance : LawfulForm JobConfig where
  wellFormed_toJson c := wellFormed_record (by simp [wellFormed_toJson])
  ofJson?_toJson c := by
    refine (JobConfig.ofJson?_of_slots? (slots?_record
      [("job_name", Form.toJson c.jobName), ("job_number", Form.toJson c.jobNumber),
        ("stream_uri", Form.toJson c.streamUri), ("segment_size", Form.toJson c.segmentSize),
        ("stall_alert_threshold_ms", Form.toJson c.stallAlertThreshold),
        ("stall_timeout_ms", Form.toJson c.stallTimeout),
        ("frame_width", Form.toJson c.frameWidth), ("frame_height", Form.toJson c.frameHeight),
        ("component", Form.toJson c.component), ("job_properties", Form.toJson c.jobProperties),
        ("media_properties", Form.toJson c.mediaProperties),
        ("transport", Form.toJson c.transport)] (by simp))).trans ?_
    simp

/-! ## Texts written anew -/

/-- What is written for the value that a text is read as. -/
def Json.rewrite? (α : Type) [Form α] (text : String) : Option String :=
  (decode? text : Option α).map encode

/-- Every value of a type is read from what is written for it, so a text that is written anew
stays as it is when it is written anew once more. -/
structure Settles (α : Type) [Form α] : Prop where
  decode?_encode : ∀ a : α, decode? (encode a) = some a
  rewrite?_rewritten : ∀ text rewritten, rewrite? α text = some rewritten →
    rewrite? α rewritten = some rewritten

/-- A type whose values are read from their forms settles. -/
theorem Settles.of_lawfulForm (α : Type) [Form α] [LawfulForm α] : Settles α where
  decode?_encode := Json.decode?_encode
  rewrite?_rewritten text rewritten h := by
    obtain ⟨a, -, rfl⟩ := Option.map_eq_some_iff.mp h
    rw [rewrite?, Json.decode?_encode, Option.map_some]

/-- Identities, statuses, alerts, media kinds and configurations are read from their own texts,
however the text was spelled that they were first read from. -/
theorem settles_reports_and_configurations :
    Settles JobIdentity ∧ Settles JobStatus ∧ Settles ActivityAlert ∧ Settles MediaKind ∧
      Settles JobConfig :=
  ⟨.of_lawfulForm _, .of_lawfulForm _, .of_lawfulForm _, .of_lawfulForm _, .of_lawfulForm _⟩

/-- An identity with its members in another order, one of them unknown, and with an escape is
written in the plain form, which is then kept. -/
theorem odd_identity_settles :
    rewrite? JobIdentity "\x7b\"job_number\":-1,\"x\":[null],\"job_name\":\"\\u0061\"\x7d" =
        some "\x7b\"job_name\":\"a\",\"job_number\":-1\x7d" ∧
      rewrite? JobIdentity "\x7b\"job_name\":\"a\",\"job_number\":-1\x7d" =
        some "\x7b\"job_name\":\"a\",\"job_number\":-1\x7d" :=
  have hrewritten : rewrite? JobIdentity
      "\x7b\"job_number\":-1,\"x\":[null],\"job_name\":\"\\u0061\"\x7d" =
        some "\x7b\"job_name\":\"a\",\"job_number\":-1\x7d" := by
    decide +kernel
  ⟨hrewritten, settles_reports_and_configurations.1.rewrite?_rewritten _ _ hrewritten⟩

end LiveDetection
