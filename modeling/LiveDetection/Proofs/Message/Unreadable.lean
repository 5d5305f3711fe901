import LiveDetection.Proofs.Message.Lookup
import LiveDetection.Proofs.Message.Reordered

/-!
# Summaries with any body

A summary is read from every message that names a job, whatever its body is. A body that holds a
payload gives the segment and the tracks; any other stands for no segment and no tracks. Why a
message is refused can be seen from its header alone.
-/

namespace LiveDetection

/-- What is wrong with the properties that should name a job. The name is looked at first. -/
inductive JobFault (properties : List Property) : CodecError → Prop where
  | noName (hnone : ∀ p ∈ properties, p.name ≠ Header.jobName) :
    JobFault properties (.missingProperty Header.jobName)
  | nameType {value : PropertyValue} (hfirst : FirstIs properties Header.jobName value)
    (htype : value.type ≠ .string) :
    JobFault properties (.wrongPropertyType Header.jobName .string)
  | noNumber {name : String} (hname : FirstIs properties Header.jobName (.string name))
    (hnone : ∀ p ∈ properties, p.name ≠ Header.jobNumber) :
    JobFault properties (.missingProperty Header.jobNumber)
  | numberType {name : String} {value : PropertyValue}
    (hname : FirstIs properties Header.jobName (.string name))
    (hfirst : FirstIs properties Header.jobNumber value) (htype : value.type ≠ .int) :
    JobFault properties (.wrongPropertyType Header.jobNumber .int)

namespace Message

variable {m : Message} {e : CodecError}

theorem jobFault_of_job (h : m.job = .error e) : JobFault m.properties e := by
  rw [job] at h
  cases hname : m.string Header.jobName with
  | error e' =>
    rw [hname] at h
    cases h
    obtain ⟨hnone, rfl⟩ | ⟨value, hsome, htype, rfl⟩ := string_eq_error_iff.mp hname
    · exact .noName (property?_eq_none_iff.mp hnone)
    · exact .nameType (property?_eq_some_iff.mp hsome) (by simpa using htype)
  | ok name =>
    have hfirst := property?_eq_some_iff.mp (string_eq_ok_iff.mp hname)
    cases hnumber : m.int Header.jobNumber with
    | error e' =>
      rw [hname, hnumber] at h
      cases h
      obtain ⟨hnone, rfl⟩ | ⟨value, hsome, htype, rfl⟩ := int_eq_error_iff.mp hnumber
      · exact .noNumber hfirst (property?_eq_none_iff.mp hnone)
      · exact .numberType hfirst (property?_eq_some_iff.mp hsome) (by simpa using htype)
    | ok number =>
      rw [hname, hnumber] at h
      cases h

/-- The fault of a header says why it names no job. -/
theorem job_eq_error_iff : m.job = .error e ↔ JobFault m.properties e := by
  refine ⟨jobFault_of_job, fun h => ?_⟩
  cases h with
  | noName hnone =>
    have hname := string_eq_error_iff.mpr (.inl ⟨property?_eq_none_iff.mpr hnone, rfl⟩)
    rw [job, hname]
    rfl
  | nameType hfirst htype =>
    have hname := string_eq_error_iff.mpr
      (.inr ⟨_, property?_eq_some_iff.mpr hfirst, by simpa using htype, rfl⟩)
    rw [job, hname]
    rfl
  | noNumber hname hnone =>
    have hname := string_eq_ok_iff.mpr (property?_eq_some_iff.mpr hname)
    have hnumber := int_eq_error_iff.mpr (.inl ⟨property?_eq_none_iff.mpr hnone, rfl⟩)
    rw [job, hname, hnumber]
    rfl
  | numberType hname hfirst htype =>
    have hname := string_eq_ok_iff.mpr (property?_eq_some_iff.mpr hname)
    have hnumber := int_eq_error_iff.mpr
      (.inr ⟨_, property?_eq_some_iff.mpr hfirst, by simpa using htype, rfl⟩)
    rw [job, hname, hnumber]
    rfl

theorem payload?_eq_some_iff {payload : SegmentPayload} :
    m.payload? = some payload ↔
      ∃ bytes, m.body = some bytes ∧ bytes ≠ [] ∧ Archive.decode? bytes = some payload := by
  rw [payload?]
  rcases m.body with _ | _ | ⟨b, bytes⟩ <;> simp

theorem payload?_eq_none_iff :
    m.payload? = none ↔ ∀ bytes, m.body = some bytes →
      bytes = [] ∨ (Archive.decode? bytes : Option SegmentPayload) = none := by
  rw [payload?]
  rcases m.body with _ | _ | ⟨b, bytes⟩ <;> simp

end Message

namespace SegmentSummary

/-- The summary of a job with what a body holds. -/
def withPayload (job : JobIdentity) : Option SegmentPayload → SegmentSummary
  | some payload => ⟨job, payload.segmentNumber, payload.tracks⟩
  | none => ⟨job, unknownSegment, []⟩

theorem ofMessage_eq (m : Message) :
    Wire.ofMessage m = m.job.map fun job => withPayload job m.payload? := by
  simp only [Wire.ofMessage]
  cases m.job with
  | error e => rfl
  | ok job => cases m.payload? <;> rfl

/-- The summary has the segment and the tracks of the payload in a body; without a payload it has
the number of a missing segment and no tracks. -/
def Shows (s : SegmentSummary) (body : Option (List UInt8)) : Prop :=
  (∃ (bytes : List UInt8) (payload : SegmentPayload), body = some bytes ∧ bytes ≠ [] ∧
    Archive.decode? bytes = some payload ∧
    s.segmentNumber = payload.segmentNumber ∧ s.tracks = payload.tracks) ∨
  (∀ bytes, body = some bytes →
    bytes = [] ∨ (Archive.decode? bytes : Option SegmentPayload) = none) ∧
    s.segmentNumber = -1 ∧ s.tracks = []

theorem job_withPayload (job : JobIdentity) (payload : Option SegmentPayload) :
    (withPayload job payload).job = job := by
  cases payload <;> rfl

theorem shows_withPayload (job : JobIdentity) (m : Message) :
    (withPayload job m.payload?).Shows m.body := by
  cases hpayload : m.payload? with
  | none => exact .inr ⟨Message.payload?_eq_none_iff.mp hpayload, rfl, rfl⟩
  | some payload =>
    obtain ⟨bytes, hbody, hbytes, hdecode⟩ := Message.payload?_eq_some_iff.mp hpayload
    exact .inl ⟨bytes, payload, hbody, hbytes, hdecode, rfl, rfl⟩

end SegmentSummary

/-- Whatever the body of a message is, a summary is read from it if and only if its header names a
job, and otherwise it is refused because of a fault of the header. The summary has what the body
holds as a whole, or nothing of it. A status and an alert do not depend on the body. -/
theorem reads_any_body (m : Message) :
    ((∃ s : SegmentSummary, Wire.ofMessage m = .ok s) ↔
      (∃ name, FirstIs m.properties "JOB_NAME" (.string name)) ∧
        ∃ number, FirstIs m.properties "JOB_NUMBER" (.int number)) ∧
    (∀ e, (Wire.ofMessage m : Except CodecError SegmentSummary) = .error e ↔
      JobFault m.properties e) ∧
    (∀ s : SegmentSummary, Wire.ofMessage m = .ok s →
      FirstIs m.properties "JOB_NAME" (.string s.job.name) ∧
        FirstIs m.properties "JOB_NUMBER" (.int s.job.number) ∧ s.Shows m.body) ∧
    ∀ body,
      (Wire.ofMessage { m with body := body } : Except CodecError JobStatus) = Wire.ofMessage m ∧
      (Wire.ofMessage { m with body := body } : Except CodecError ActivityAlert) =
        Wire.ofMessage m := by
  have hok : ∀ s : SegmentSummary, Wire.ofMessage m = .ok s →
      FirstIs m.properties "JOB_NAME" (.string s.job.name) ∧
        FirstIs m.properties "JOB_NUMBER" (.int s.job.number) ∧ s.Shows m.body := by
    intro s hs
    rw [SegmentSummary.ofMessage_eq] at hs
    cases hjob : m.job with
    | error e =>
      rw [hjob] at hs
      cases hs
    | ok job =>
      rw [hjob] at hs
      cases hs
      obtain ⟨hname, hnumber⟩ := Message.job_eq_ok_iff.mp hjob
      rw [SegmentSummary.job_withPayload]
      exact ⟨hname, hnumber, SegmentSummary.shows_withPayload job m⟩
  refine ⟨⟨?_, ?_⟩, fun e => ?_, hok, fun body => ⟨?_, ?_⟩⟩
  · rintro ⟨s, hs⟩
    obtain ⟨hname, hnumber, -⟩ := hok s hs
    exact ⟨⟨_, hname⟩, _, hnumber⟩
  · rintro ⟨⟨name, hname⟩, number, hnumber⟩
    have hjob : m.job = .ok ⟨name, number⟩ := Message.job_eq_ok_iff.mpr ⟨hname, hnumber⟩
    rw [SegmentSummary.ofMessage_eq, hjob]
    exact ⟨_, rfl⟩
  · rw [← Message.job_eq_error_iff, SegmentSummary.ofMessage_eq]
    cases m.job <;> simp [Except.map]
  · exact JobStatus.ofMessage_congr fun _ _ => rfl
  · exact ActivityAlert.ofMessage_congr fun _ _ => rfl

end LiveDetection
