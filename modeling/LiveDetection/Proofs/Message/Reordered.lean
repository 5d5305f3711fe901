import LiveDetection.Message.Report
import LiveDetection.Proofs.Data.OrderedMap
import Mathlib.Data.List.Forall2

/-!
# Reading does not depend on order

A report is read from the properties of its names, wherever they stand among others, and a track
from the entries of its record. Of entries with one key the last counts, so entries with distinct
keys may be in any order.
-/

namespace LiveDetection

/-! ## Header properties -/

namespace Message

variable {m m' : Message} {name : String}

/-- `m'` has the properties of `m`, whose names are distinct, in any order and with any others
among them that have none of some names. -/
structure Reordered (m m' : Message) (names : List String) : Prop where
  distinct : (m.properties.map (·.name)).Nodup
  perm : ∃ others, m'.properties.Perm (m.properties ++ others) ∧ ∀ p ∈ others, p.name ∉ names
  body_eq : m'.body = m.body

theorem Reordered.property?_eq {names : List String} (h : m.Reordered m' names)
    (hname : name ∈ names) : m'.property? name = m.property? name := by
  obtain ⟨others, hperm, hothers⟩ := h.perm
  have hnone : others.filter (fun p => p.name = name) = [] := by
    rw [List.filter_eq_nil_iff]
    intro p hp heq
    exact hothers p hp (of_decide_eq_true heq ▸ hname)
  have hmissing : others.find? (fun p => p.name = name) = none := by
    rw [← List.head?_filter, hnone, List.head?_nil]
  have hone : ((m.properties ++ others).filter fun p => p.name = name).length ≤ 1 := by
    rw [List.filter_append, hnone, List.append_nil]
    exact length_filter_le_one h.distinct name
  have hfind := find?_eq_of_perm hperm hone
  rw [List.find?_append, hmissing, Option.or_none] at hfind
  exact congrArg (Option.map (·.value)) hfind

theorem string_congr (h : m'.property? name = m.property? name) :
    m'.string name = m.string name := by
  simp only [string, require, h]

theorem int_congr (h : m'.property? name = m.property? name) : m'.int name = m.int name := by
  simp only [int, require, h]

theorem long_congr (h : m'.property? name = m.property? name) : m'.long name = m.long name := by
  simp only [long, require, h]

end Message

/-- The names that a status is read from. -/
def JobStatus.headerNames : List String := [Header.jobName, Header.jobNumber, Header.jobStatus]

/-- The names that an alert is read from. -/
def ActivityAlert.headerNames : List String :=
  [Header.jobName, Header.jobNumber, Header.segmentNumber, Header.frameIndex,
    Header.activityDetectTime]

/-- The names that a summary is read from. -/
def SegmentSummary.headerNames : List String := [Header.jobName, Header.jobNumber]

section

variable {m m' : Message}

theorem Message.job_congr (h : ∀ name ∈ SegmentSummary.headerNames,
    m'.property? name = m.property? name) : m'.job = m.job := by
  have hname := Message.string_congr (h Header.jobName (by decide))
  have hnumber := Message.int_congr (h Header.jobNumber (by decide))
  simp only [Message.job, hname, hnumber]

/-- A status is read from what its names stand for, and from nothing else. -/
theorem JobStatus.ofMessage_congr (h : ∀ name ∈ JobStatus.headerNames,
    m'.property? name = m.property? name) :
    (Wire.ofMessage m' : Except CodecError JobStatus) = Wire.ofMessage m := by
  have hjob : m'.job = m.job := Message.job_congr fun name hname =>
    h name (List.mem_append_left [Header.jobStatus] hname)
  have hstatus := Message.string_congr (h Header.jobStatus (by decide))
  simp only [Wire.ofMessage, hjob, hstatus]

/-- An alert is read from what its names stand for, and from nothing else. -/
theorem ActivityAlert.ofMessage_congr (h : ∀ name ∈ ActivityAlert.headerNames,
    m'.property? name = m.property? name) :
    (Wire.ofMessage m' : Except CodecError ActivityAlert) = Wire.ofMessage m := by
  have hjob : m'.job = m.job := Message.job_congr fun name hname =>
    h name (List.mem_append_left
      [Header.segmentNumber, Header.frameIndex, Header.activityDetectTime] hname)
  have hsegment := Message.int_congr (h Header.segmentNumber (by decide))
  have hframe := Message.int_congr (h Header.frameIndex (by decide))
  have htime := Message.long_congr (h Header.activityDetectTime (by decide))
  simp only [Wire.ofMessage, hjob, hsegment, hframe, htime]

/-- A summary is read from what its names stand for and from the body. -/
theorem SegmentSummary.ofMessage_congr (h : ∀ name ∈ SegmentSummary.headerNames,
    m'.property? name = m.property? name) (hbody : m'.body = m.body) :
    (Wire.ofMessage m' : Except CodecError SegmentSummary) = Wire.ofMessage m := by
  have hpayload : m'.payload? = m.payload? := by rw [Message.payload?, hbody]; rfl
  simp only [Wire.ofMessage, Message.job_congr h, hpayload]

end

/-! ## Entries of records -/

theorem map_eq_of_forall₂ {α β : Type} {R : α → α → Prop} {l l' : List α} {f : α → β}
    (h : List.Forall₂ R l l') (hR : ∀ a a', R a a' → f a' = f a) : l'.map f = l.map f := by
  induction h with
  | nil => rfl
  | cons hfirst _ ih => rw [List.map_cons, List.map_cons, hR _ _ hfirst, ih]

theorem Rearranged.map {κ α β : Type} {entries entries' : List (κ × α)}
    (h : Rearranged entries entries') (f : α → β) :
    Rearranged (entries.map fun entry => (entry.1, f entry.2))
      (entries'.map fun entry => (entry.1, f entry.2)) := by
  refine h.imp (congrArg _) fun ⟨hdistinct, hperm⟩ => ⟨?_, hperm.map _⟩
  rwa [List.map_map]

/-- The same record of a location with its properties rearranged. -/
structure LocationRecord.Reordered (r r' : LocationRecord) : Prop where
  fields_eq : r' = { r with properties := r'.properties }
  properties : Rearranged r.properties r'.properties

/-- The same record of a track with its locations, the properties of each of them, and its own
properties rearranged. -/
structure TrackRecord.Reordered (r r' : TrackRecord) : Prop where
  fields_eq : r' = { r with locations := r'.locations, properties := r'.properties }
  locations : ∃ locations,
    List.Forall₂ (fun entry entry' => entry'.1 = entry.1 ∧ entry.2.Reordered entry'.2)
      r.locations locations ∧
    Rearranged locations r'.locations
  properties : Rearranged r.properties r'.properties

theorem LocationRecord.Reordered.toLocation_eq {r r' : LocationRecord} (h : r.Reordered r') :
    r'.toLocation = r.toLocation := by
  rw [h.fields_eq]
  simp only [toLocation, OrderedMap.ofList_eq_of_rearranged h.properties]

theorem TrackRecord.Reordered.toTrack_eq {r r' : TrackRecord} (h : r.Reordered r') :
    r'.toTrack = r.toTrack := by
  obtain ⟨locations, hsame, hrearranged⟩ := h.locations
  have hentries : locations.map (fun entry => (entry.1, entry.2.toLocation)) =
      r.locations.map fun entry => (entry.1, entry.2.toLocation) :=
    map_eq_of_forall₂ hsame fun _ _ hentry => by rw [hentry.1, hentry.2.toLocation_eq]
  rw [h.fields_eq]
  simp only [toTrack, OrderedMap.ofList_eq_of_rearranged h.properties, ← hentries,
    OrderedMap.ofList_eq_of_rearranged (hrearranged.map LocationRecord.toLocation)]

/-- The location has the fields of the record, and of the properties with one key the last. -/
structure ImageLocation.ReadFrom (l : ImageLocation) (r : LocationRecord) : Prop where
  x_eq : l.x = r.x
  y_eq : l.y = r.y
  width_eq : l.width = r.width
  height_eq : l.height = r.height
  confidence_eq : l.confidence = r.confidence
  properties_eq : ∀ key, l.properties.get? key = lastOf? r.properties key

/-- The track has the fields of the record, and of the locations in one frame and the properties
with one key the last. -/
structure Track.ReadFrom (t : Track) (r : TrackRecord) : Prop where
  startFrame_eq : t.startFrame = r.startFrame
  stopFrame_eq : t.stopFrame = r.stopFrame
  confidence_eq : t.confidence = r.confidence
  locations_rel : ∀ frame,
    Option.Rel ImageLocation.ReadFrom (t.locations.get? frame) (lastOf? r.locations frame)
  properties_eq : ∀ key, t.properties.get? key = lastOf? r.properties key

theorem LocationRecord.readFrom_toLocation (r : LocationRecord) : r.toLocation.ReadFrom r :=
  ⟨rfl, rfl, rfl, rfl, rfl, OrderedMap.get?_ofList r.properties⟩

theorem TrackRecord.readFrom_toTrack (r : TrackRecord) : r.toTrack.ReadFrom r := by
  refine ⟨rfl, rfl, rfl, fun frame => ?_, OrderedMap.get?_ofList r.properties⟩
  rw [toTrack, OrderedMap.get?_ofList, lastOf?_map]
  cases lastOf? r.locations frame with
  | none => exact .none
  | some record => exact .some record.readFrom_toLocation

namespace SegmentPayload

variable {p p' : SegmentPayload}

theorem tracks_eq_map (p : SegmentPayload) :
    p.tracks = p.responses.flatten.map TrackRecord.toTrack := by
  rw [tracks, List.map_flatten, List.flatMap_def]

theorem tracks_eq_of_reordered
    (h : List.Forall₂ (List.Forall₂ TrackRecord.Reordered) p.responses p'.responses) :
    p'.tracks = p.tracks := by
  rw [tracks, tracks, List.flatMap_def, List.flatMap_def]
  have hresponses := map_eq_of_forall₂ h fun _ _ hrecords =>
    map_eq_of_forall₂ hrecords fun _ _ hrecord => hrecord.toTrack_eq
  rw [hresponses]

/-- Tracks are read from the records of all responses, in their order. -/
theorem forall₂_readFrom_tracks (p : SegmentPayload) :
    List.Forall₂ Track.ReadFrom p.tracks p.responses.flatten := by
  rw [tracks_eq_map, List.forall₂_map_left_iff, List.forall₂_same]
  exact fun r _ => r.readFrom_toTrack

end SegmentPayload

/-! ## Reading in any order -/

/-- A report of any kind is read from a message, or fails to be, as it is from the same properties
in any other order and with others of names that do not count. The tracks of a payload do not
depend on the order of entries with distinct keys in any of its records; of entries with one key
the last counts, and the tracks come in the order of the records. -/
theorem reads_in_any_order :
    (∀ m m' : Message,
      (m.Reordered m' JobStatus.headerNames →
        (Wire.ofMessage m' : Except CodecError JobStatus) = Wire.ofMessage m) ∧
      (m.Reordered m' ActivityAlert.headerNames →
        (Wire.ofMessage m' : Except CodecError ActivityAlert) = Wire.ofMessage m) ∧
      (m.Reordered m' SegmentSummary.headerNames →
        (Wire.ofMessage m' : Except CodecError SegmentSummary) = Wire.ofMessage m)) ∧
    (∀ p p' : SegmentPayload,
      List.Forall₂ (List.Forall₂ TrackRecord.Reordered) p.responses p'.responses →
        p'.tracks = p.tracks) ∧
    ∀ p : SegmentPayload, List.Forall₂ Track.ReadFrom p.tracks p.responses.flatten := by
  refine ⟨fun m m' => ⟨fun h => ?_, fun h => ?_, fun h => ?_⟩, fun p p' h => ?_, fun p => ?_⟩
  · exact JobStatus.ofMessage_congr fun _ => h.property?_eq
  · exact ActivityAlert.ofMessage_congr fun _ => h.property?_eq
  · exact SegmentSummary.ofMessage_congr (fun _ => h.property?_eq) h.body_eq
  · exact SegmentPayload.tracks_eq_of_reordered h
  · exact SegmentPayload.forall₂_readFrom_tracks p

/-- A location with two properties. -/
def LocationRecord.sample : LocationRecord where
  x := 1
  y := -2
  width := 3
  height := 4
  confidence := ⟨0x3F800000⟩
  properties := [("a", "1"), ("b", "2")]

/-- A track with the sample location in two frames and one key twice. -/
def TrackRecord.sample : TrackRecord where
  startFrame := 4
  stopFrame := 9
  confidence := ⟨0x3F800000⟩
  locations := [(4, .sample), (9, .sample)]
  properties := [("c", "3"), ("c", "4")]

/-- A header of values of wrong types, which are swapped and have others around them, and the sample
track, of which the locations are swapped and so are the properties of one of them. -/
theorem reads_sample_in_any_order :
    (Wire.ofMessage ⟨[⟨"X", .int 0⟩, ⟨"JOB_NUMBER", .string "7"⟩, ⟨"X", .int 1⟩,
        ⟨"JOB_NAME", .int 7⟩], none⟩ : Except CodecError SegmentSummary) =
      Wire.ofMessage ⟨[⟨"JOB_NAME", .int 7⟩, ⟨"JOB_NUMBER", .string "7"⟩], none⟩ ∧
    SegmentPayload.tracks ⟨0, [[], [{ TrackRecord.sample with
        locations := [(9, .sample),
          (4, { LocationRecord.sample with properties := [("b", "2"), ("a", "1")] })] }]]⟩ =
      SegmentPayload.tracks ⟨0, [[], [.sample]]⟩ := by
  have hlocations : List.Forall₂
      (fun entry entry' : Int32 × LocationRecord =>
        entry'.1 = entry.1 ∧ entry.2.Reordered entry'.2)
      TrackRecord.sample.locations
      [(4, { LocationRecord.sample with properties := [("b", "2"), ("a", "1")] }),
        (9, .sample)] :=
    .cons ⟨rfl, rfl, .inr ⟨by decide, by decide⟩⟩ (.cons ⟨rfl, rfl, .inl rfl⟩ .nil)
  refine ⟨(reads_in_any_order.1 _ _).2.2 ⟨by decide, ?_, rfl⟩,
    reads_in_any_order.2.1 _ _ (.cons .nil (.cons (.cons ⟨rfl, ?_, .inl rfl⟩ .nil) .nil))⟩
  · exact ⟨[⟨"X", .int 0⟩, ⟨"X", .int 1⟩], by decide, by decide⟩
  · exact ⟨_, hlocations, .inr ⟨by decide, by decide⟩⟩

end LiveDetection
