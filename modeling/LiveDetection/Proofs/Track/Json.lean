import LiveDetection.Proofs.Json.Finite
import LiveDetection.Proofs.Report.Json

/-!
# Detections in JSON read back

Detections and summaries of them hold confidences. What was written for one is read as the same
detection, every confidence bit by bit. A confidence beyond the range of single precision is the
one thing that is lost: it is written as if it were absent, and the detection is not read again.
-/

namespace LiveDetection

open Json

/-- A location is read from the six members of its form. -/
theorem ImageLocation.ofJson?_of_slots? {v : Value}
    {x y width height confidence properties : Slot}
    (h : slots? ["x", "y", "width", "height", "confidence", "detection_properties"] v =
      some [x, y, width, height, confidence, properties]) :
    Form.ofJson? v = do
      return ImageLocation.mk (← x.required) (← y.required) (← width.required)
        (← height.required) (← confidence.required) (← properties.required) := by
  simp only [Form.ofJson?, h]
  rfl

instance : HasConfidences ImageLocation where
  confidences l := confidences l.confidence

instance : FiniteForm ImageLocation where
  wellFormed_form l := wellFormed_record (by simp [wellFormed_toJson, wellFormed_form])
  ofJson?_form l := by
    refine (ImageLocation.ofJson?_of_slots? (slots?_record
      [("x", Form.toJson l.x), ("y", Form.toJson l.y), ("width", Form.toJson l.width),
        ("height", Form.toJson l.height), ("confidence", Form.toJson l.confidence),
        ("detection_properties", Form.toJson l.properties)] (by simp))).trans ?_
    have hfinite : AllFinite l = AllFinite l.confidence := rfl
    cases h : AllFinite l.confidence <;> simp [h, hfinite]

/-- A track is read from the five members of its form. -/
theorem Track.ofJson?_of_slots? {v : Value}
    {startFrame stopFrame confidence locations properties : Slot}
    (h : slots? ["start_frame", "stop_frame", "confidence", "frame_locations",
        "detection_properties"] v =
      some [startFrame, stopFrame, confidence, locations, properties]) :
    Form.ofJson? v = do
      return Track.mk (← startFrame.required) (← stopFrame.required) (← confidence.required)
        (← locations.required) (← properties.required) := by
  simp only [Form.ofJson?, h]
  rfl

instance : HasConfidences Track where
  confidences t := confidences t.confidence ++ confidences t.locations

instance : FiniteForm Track where
  wellFormed_form t := wellFormed_record (by simp [wellFormed_toJson, wellFormed_form])
  ofJson?_form t := by
    refine (Track.ofJson?_of_slots? (slots?_record
      [("start_frame", Form.toJson t.startFrame), ("stop_frame", Form.toJson t.stopFrame),
        ("confidence", Form.toJson t.confidence), ("frame_locations", Form.toJson t.locations),
        ("detection_properties", Form.toJson t.properties)] (by simp))).trans ?_
    have hfinite : AllFinite t = (AllFinite t.confidence && AllFinite t.locations) :=
      List.all_append
    cases h : AllFinite t.confidence <;> cases h' : AllFinite t.locations <;> simp [h, h', hfinite]

/-- A stretch of sound is read from the four members of its form. -/
theorem AudioTrack.ofJson?_of_slots? {v : Value}
    {startTime stopTime confidence properties : Slot}
    (h : slots? ["start_time", "stop_time", "confidence", "detection_properties"] v =
      some [startTime, stopTime, confidence, properties]) :
    Form.ofJson? v = do
      return AudioTrack.mk (← startTime.required) (← stopTime.required) (← confidence.required)
        (← properties.required) := by
  simp only [Form.ofJson?, h]
  rfl

instance : HasConfidences AudioTrack where
  confidences t := confidences t.confidence

instance : FiniteForm AudioTrack where
  wellFormed_form t := wellFormed_record (by simp [wellFormed_toJson, wellFormed_form])
  ofJson?_form t := by
    refine (AudioTrack.ofJson?_of_slots? (slots?_record
      [("start_time", Form.toJson t.startTime), ("stop_time", Form.toJson t.stopTime),
        ("confidence", Form.toJson t.confidence),
        ("detection_properties", Form.toJson t.properties)] (by simp))).trans ?_
    have hfinite : AllFinite t = AllFinite t.confidence := rfl
    cases h : AllFinite t.confidence <;> simp [h, hfinite]

/-- A detection without place or time is read from the two members of its form. -/
theorem GenericTrack.ofJson?_of_slots? {v : Value} {confidence properties : Slot}
    (h : slots? ["confidence", "detection_properties"] v = some [confidence, properties]) :
    Form.ofJson? v = do
      return GenericTrack.mk (← confidence.required) (← properties.required) := by
  simp only [Form.ofJson?, h]
  rfl

instance : HasConfidences GenericTrack where
  confidences t := confidences t.confidence

instance : FiniteForm GenericTrack where
  wellFormed_form t :=
    wellFormed_pair (wellFormed_form t.confidence) (wellFormed_toJson t.properties)
  ofJson?_form t := by
    refine (GenericTrack.ofJson?_of_slots? (slots?_pair (by decide) _ _)).trans ?_
    have hfinite : AllFinite t = AllFinite t.confidence := rfl
    cases h : AllFinite t.confidence <;> simp [h, hfinite]

/-- A summary is read from the three members of its form. -/
theorem SegmentSummary.ofJson?_of_slots? {v : Value} {job segmentNumber tracks : Slot}
    (h : slots? ["job", "segment_number", "tracks"] v = some [job, segmentNumber, tracks]) :
    Form.ofJson? v = do
      return SegmentSummary.mk (← job.required) (← segmentNumber.required)
        (← tracks.required) := by
  simp only [Form.ofJson?, h]
  rfl

instance : HasConfidences SegmentSummary where
  confidences s := confidences s.tracks

instance : FiniteForm SegmentSummary where
  wellFormed_form s := wellFormed_record (by simp [wellFormed_toJson, wellFormed_form])
  ofJson?_form s := by
    refine (SegmentSummary.ofJson?_of_slots? (slots?_record
      [("job", Form.toJson s.job), ("segment_number", Form.toJson s.segmentNumber),
        ("tracks", Form.toJson s.tracks)] (by simp))).trans ?_
    have hfinite : AllFinite s = AllFinite s.tracks := rfl
    cases h : AllFinite s.tracks <;> simp [h, hfinite]

/-! ## Detections written anew -/

/-- A value that is read from a text is read again from what is written for it if all its
confidences are finite. Otherwise nothing is read from that. -/
structure Json.ReadsAgain (α : Type) [Form α] [HasConfidences α] : Prop where
  same : ∀ (text : String) (a : α), decode? text = some a → AllFinite a →
    decode? (encode a) = some a
  refused : ∀ (text : String) (a : α), decode? text = some a → ¬ AllFinite a →
    (decode? (encode a) : Option α) = none

theorem Json.ReadsAgain.of_finiteForm (α : Type) [Form α] [HasConfidences α] [FiniteForm α] :
    ReadsAgain α where
  same _ a _ h := by rw [decode?_encode_eq_ite, if_pos h]
  refused _ a _ h := by rw [decode?_encode_eq_ite, if_neg h]

/-- Locations, tracks and summaries are read again, every confidence bit by bit, however the text
was spelled that they were first read from. -/
theorem detections_read_again :
    ReadsAgain ImageLocation ∧ ReadsAgain Track ∧ ReadsAgain AudioTrack ∧
      ReadsAgain GenericTrack ∧ ReadsAgain SegmentSummary :=
  ⟨.of_finiteForm _, .of_finiteForm _, .of_finiteForm _, .of_finiteForm _, .of_finiteForm _⟩

/-- A track in array form, with two locations for one frame and confidences that are hard to read:
a signed zero, the least positive value and the one whose decimal lies nearest to an end. -/
def oddTrackText : String :=
  "[1, 5, 7.038531e-26, \x7b\"3\": [0, 0, 8, 6, 0.1, \x7b\x7d], " ++
    "\"-2\": [0, 0, 8, 6, -0.0, \x7b\x7d], \"3\": [0, 0, 9, 9, 1e-45, \x7b\x7d]\x7d, " ++
    "\x7b\"b\": \"\", \"a\": \"\\u00e9\"\x7d]"

/-- The track that the text denotes. -/
def oddTrack : Track where
  startFrame := 1
  stopFrame := 5
  confidence := ⟨0x15AE43FD⟩
  locations := .ofList
    [(-2, { x := 0, y := 0, width := 8, height := 6, confidence := ⟨0x80000000⟩ }),
      (3, { x := 0, y := 0, width := 9, height := 9, confidence := ⟨0x00000001⟩ })]
  properties := .ofList [("a", "é"), ("b", "")]

theorem oddTrack_reads_again :
    decode? oddTrackText = some oddTrack ∧ AllFinite oddTrack ∧
      decode? (encode oddTrack) = some oddTrack :=
  have hread : decode? oddTrackText = some oddTrack := by decide +kernel
  have hfinite : AllFinite oddTrack := by decide +kernel
  ⟨hread, hfinite, detections_read_again.2.1.same _ _ hread hfinite⟩

/-- A confidence beyond the range is read as infinite and written as if it were absent, which is
not read again. -/
theorem infinite_confidence_not_read_again :
    (decode? "[1e39, \x7b\x7d]" : Option GenericTrack) = some ⟨⟨0x7F800000⟩, .empty⟩ ∧
      encode (⟨⟨0x7F800000⟩, .empty⟩ : GenericTrack) =
        "\x7b\"confidence\":null,\"detection_properties\":\x7b\x7d\x7d" ∧
      (decode? (encode (⟨⟨0x7F800000⟩, .empty⟩ : GenericTrack)) : Option GenericTrack) = none := by
  decide +kernel

end LiveDetection
