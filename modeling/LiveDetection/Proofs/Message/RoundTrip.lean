import LiveDetection.Message.Report
import LiveDetection.Proofs.Message.Lookup
import LiveDetection.Proofs.Message.Payload

/-!
# Reports read back from their messages

The message of a report consists of the header properties of its kind and, for a summary
only, a body. Reading the message gives the report back: the header properties are told
apart by their names, and the body is an archive of records that lose nothing of the
tracks, which keep their locations and properties in key order.
-/

namespace LiveDetection

open Archive

/-- The header of a job holds its name and its number. -/
theorem JobIdentity.header_eq (job : JobIdentity) :
    job.header =
      ⟨[⟨Header.jobName, .string job.name⟩, ⟨Header.jobNumber, .int job.number⟩], none⟩ := by
  simp [header, Message.setInt, Message.setString, Message.set, Message.empty,
    Message.setProperty, Header.jobName, Header.jobNumber]

/-- A message that begins with the header of a job names that job. -/
theorem Message.job_of_header (job : JobIdentity) (rest : List Property)
    (body : Option (List UInt8)) :
    Message.job ⟨⟨Header.jobName, .string job.name⟩ :: ⟨Header.jobNumber, .int job.number⟩ :: rest,
      body⟩ = .ok job := by
  have hne : Header.jobName ≠ Header.jobNumber := by decide
  exact job_eq_ok_iff.mpr ⟨⟨[], _, rfl, by simp⟩, [_], rest, rfl, by simpa using hne⟩

/-- The header properties of a status. -/
def JobStatus.headerProperties (s : JobStatus) : List Property :=
  [⟨Header.jobName, .string s.job.name⟩, ⟨Header.jobNumber, .int s.job.number⟩,
    ⟨Header.jobStatus, .string s.status⟩]

/-- The header properties of an alert. -/
def ActivityAlert.headerProperties (a : ActivityAlert) : List Property :=
  [⟨Header.jobName, .string a.job.name⟩, ⟨Header.jobNumber, .int a.job.number⟩,
    ⟨Header.segmentNumber, .int a.segmentNumber⟩, ⟨Header.frameIndex, .int a.frameIndex⟩,
    ⟨Header.activityDetectTime, .long a.detectTime⟩]

/-- The header properties of a summary. -/
def SegmentSummary.headerProperties (s : SegmentSummary) : List Property :=
  [⟨Header.jobName, .string s.job.name⟩, ⟨Header.jobNumber, .int s.job.number⟩]

theorem JobStatus.toMessage_eq (s : JobStatus) :
    Wire.toMessage s = .ok ⟨s.headerProperties, none⟩ := by
  simp [Wire.toMessage, JobIdentity.header_eq, headerProperties, Message.setString, Message.set,
    Message.setProperty, Header.jobName, Header.jobNumber, Header.jobStatus]

theorem ActivityAlert.toMessage_eq (a : ActivityAlert) :
    Wire.toMessage a = .ok ⟨a.headerProperties, none⟩ := by
  simp [Wire.toMessage, JobIdentity.header_eq, headerProperties, Message.setInt, Message.setLong,
    Message.set, Message.setProperty, Header.jobName, Header.jobNumber, Header.segmentNumber,
    Header.frameIndex, Header.activityDetectTime]

/-- A summary has a message exactly when its payload has an archive, which is the body. -/
theorem SegmentSummary.toMessage_eq_ok {s : SegmentSummary} {m : Message} :
    Wire.toMessage s = .ok m ↔ ∃ body,
      encode? (SegmentPayload.ofTracks s.segmentNumber s.tracks) = some body ∧
        m = ⟨s.headerProperties, some body⟩ := by
  simp only [Wire.toMessage, JobIdentity.header_eq, Message.setBody, headerProperties]
  cases encode? (SegmentPayload.ofTracks s.segmentNumber s.tracks) with
  | none => simp
  | some body => simp [eq_comm]

theorem JobStatus.ofMessage_headerProperties (s : JobStatus) (body : Option (List UInt8)) :
    Wire.ofMessage ⟨s.headerProperties, body⟩ = .ok s := by
  have hstatus : Message.string ⟨s.headerProperties, body⟩ Header.jobStatus = .ok s.status :=
    Message.string_eq_ok_iff.mpr (by
      simp [headerProperties, Message.property?, Header.jobName, Header.jobNumber,
        Header.jobStatus])
  simp only [headerProperties] at hstatus
  simp [Wire.ofMessage, headerProperties, Message.job_of_header, hstatus, bind, Except.bind, pure,
    Except.pure]

theorem ActivityAlert.ofMessage_headerProperties (a : ActivityAlert) (body : Option (List UInt8)) :
    Wire.ofMessage ⟨a.headerProperties, body⟩ = .ok a := by
  have hsegment : Message.int ⟨a.headerProperties, body⟩ Header.segmentNumber =
      .ok a.segmentNumber :=
    Message.int_eq_ok_iff.mpr (by
      simp [headerProperties, Message.property?, Header.jobName, Header.jobNumber,
        Header.segmentNumber])
  have hframe : Message.int ⟨a.headerProperties, body⟩ Header.frameIndex = .ok a.frameIndex :=
    Message.int_eq_ok_iff.mpr (by
      simp [headerProperties, Message.property?, Header.jobName, Header.jobNumber,
        Header.segmentNumber, Header.frameIndex])
  have htime : Message.long ⟨a.headerProperties, body⟩ Header.activityDetectTime =
      .ok a.detectTime :=
    Message.long_eq_ok_iff.mpr (.inl (by
      simp [headerProperties, Message.property?, Header.jobName, Header.jobNumber,
        Header.segmentNumber, Header.frameIndex, Header.activityDetectTime]))
  simp only [headerProperties] at hsegment hframe htime
  simp [Wire.ofMessage, headerProperties, Message.job_of_header, hsegment, hframe, htime, bind,
    Except.bind, pure, Except.pure]

/-- The body of a summary is not empty and holds the payload of the summary. -/
theorem SegmentSummary.payload?_of_encode? {s : SegmentSummary} {body : List UInt8}
    (h : encode? (SegmentPayload.ofTracks s.segmentNumber s.tracks) = some body) :
    ∃ first rest, body = first :: rest ∧
      Message.payload? ⟨s.headerProperties, some body⟩ =
        some (SegmentPayload.ofTracks s.segmentNumber s.tracks) := by
  have hsize := size_le_of_encode? h
  have hpos : 0 < Archived.size SegmentPayload := LawfulArchived.size_pos
  obtain ⟨first, rest, rfl⟩ := List.exists_cons_of_length_pos (Nat.lt_of_lt_of_le hpos hsize)
  exact ⟨first, rest, rfl, decode?_encode? h⟩

theorem SegmentSummary.ofMessage_of_encode? {s : SegmentSummary} {body : List UInt8}
    (h : encode? (SegmentPayload.ofTracks s.segmentNumber s.tracks) = some body) :
    Wire.ofMessage ⟨s.headerProperties, some body⟩ = .ok s := by
  obtain ⟨first, rest, -, hpayload⟩ := payload?_of_encode? h
  have hjob : Message.job ⟨s.headerProperties, some body⟩ = .ok s.job :=
    Message.job_of_header s.job [] (some body)
  have htracks := SegmentPayload.tracks_ofTracks s.segmentNumber s.tracks
  simp only [Wire.ofMessage, hjob, hpayload, htracks, bind, Except.bind, pure, Except.pure]
  rfl

/-- Every status and every alert has a message, and so has every summary whose payload has an
archive. The message of a report reads back as the report, with every confidence bit for bit; it
has exactly the header properties of its kind, and a body, which is not empty, only if the report
is a summary. -/
theorem readsBack_toMessage :
    (∀ s : JobStatus, ∃ m, Wire.toMessage s = .ok m ∧ Wire.ofMessage m = .ok s ∧
      m.properties = [⟨"JOB_NAME", .string s.job.name⟩, ⟨"JOB_NUMBER", .int s.job.number⟩,
        ⟨"JOB_STATUS", .string s.status⟩] ∧
      m.body = none) ∧
    (∀ a : ActivityAlert, ∃ m, Wire.toMessage a = .ok m ∧ Wire.ofMessage m = .ok a ∧
      m.properties = [⟨"JOB_NAME", .string a.job.name⟩, ⟨"JOB_NUMBER", .int a.job.number⟩,
        ⟨"SEGMENT_NUMBER", .int a.segmentNumber⟩, ⟨"FRAME_INDEX", .int a.frameIndex⟩,
        ⟨"ACTIVITY_DETECT_TIME", .long a.detectTime⟩] ∧
      m.body = none) ∧
    ∀ (s : SegmentSummary) (m : Message), Wire.toMessage s = .ok m →
      Wire.ofMessage m = .ok s ∧
      m.properties = [⟨"JOB_NAME", .string s.job.name⟩, ⟨"JOB_NUMBER", .int s.job.number⟩] ∧
      ∃ first rest, m.body = some (first :: rest) := by
  refine ⟨fun s => ?_, fun a => ?_, fun s m h => ?_⟩
  · exact ⟨_, s.toMessage_eq, s.ofMessage_headerProperties none, rfl, rfl⟩
  · exact ⟨_, a.toMessage_eq, a.ofMessage_headerProperties none, rfl, rfl⟩
  · obtain ⟨body, hbody, rfl⟩ := SegmentSummary.toMessage_eq_ok.mp h
    obtain ⟨first, rest, rfl, -⟩ := SegmentSummary.payload?_of_encode? hbody
    exact ⟨SegmentSummary.ofMessage_of_encode? hbody, rfl, first, rest, rfl⟩

/-- A summary with confidences that are no numbers, empty texts, long texts and empty maps. -/
def sampleSummary : SegmentSummary where
  job := ⟨"Überwachung", -3⟩
  segmentNumber := 7
  tracks := [
    { startFrame := 3, stopFrame := 5, confidence := ⟨0x7FC00001⟩
      locations := OrderedMap.empty.insert 4
        { x := -1, y := 2, width := 3, height := 4, confidence := ⟨0xFFFFFFFF⟩
          properties := OrderedMap.empty.insert "a key of some length" "" }
      properties := OrderedMap.empty.insert "" "grün" },
    { startFrame := 0, stopFrame := 0, confidence := ⟨0x80000000⟩ }]

/-- The sample summary has a message, which reads back. -/
theorem readsBack_sampleSummary : ∃ m, Wire.toMessage sampleSummary = .ok m ∧
    Wire.ofMessage m = .ok sampleSummary ∧
    m.properties = [⟨"JOB_NAME", .string "Überwachung"⟩, ⟨"JOB_NUMBER", .int (-3)⟩] ∧
    ∃ first rest, m.body = some (first :: rest) := by
  have hsome : (encode? (SegmentPayload.ofTracks sampleSummary.segmentNumber
      sampleSummary.tracks)).isSome := by
    decide +kernel
  obtain ⟨body, hbody⟩ := Option.isSome_iff_exists.mp hsome
  have hm := SegmentSummary.toMessage_eq_ok.mpr ⟨body, hbody, rfl⟩
  exact ⟨_, hm, readsBack_toMessage.2.2 sampleSummary _ hm⟩

end LiveDetection
