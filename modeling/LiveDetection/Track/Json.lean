import LiveDetection.Json.Form
import LiveDetection.Track.Basic

/-!
# Detections in JSON
-/

namespace LiveDetection

open Json

instance : Form ImageLocation where
  toJson l :=
    record
      [("x", Form.toJson l.x), ("y", Form.toJson l.y), ("width", Form.toJson l.width),
        ("height", Form.toJson l.height), ("confidence", Form.toJson l.confidence),
        ("detection_properties", Form.toJson l.properties)]
  ofJson? v := do
    match ← slots? ["x", "y", "width", "height", "confidence", "detection_properties"] v with
    | [x, y, width, height, confidence, properties] =>
      return ⟨← x.required, ← y.required, ← width.required, ← height.required,
        ← confidence.required, ← properties.required⟩
    | _ => none

instance : Form Track where
  toJson t :=
    record
      [("start_frame", Form.toJson t.startFrame), ("stop_frame", Form.toJson t.stopFrame),
        ("confidence", Form.toJson t.confidence), ("frame_locations", Form.toJson t.locations),
        ("detection_properties", Form.toJson t.properties)]
  ofJson? v := do
    match ← slots? ["start_frame", "stop_frame", "confidence", "frame_locations",
        "detection_properties"] v with
    | [start, stop, confidence, locations, properties] =>
      return ⟨← start.required, ← stop.required, ← confidence.required, ← locations.required,
        ← properties.required⟩
    | _ => none

instance : Form AudioTrack where
  toJson t :=
    record
      [("start_time", Form.toJson t.startTime), ("stop_time", Form.toJson t.stopTime),
        ("confidence", Form.toJson t.confidence),
        ("detection_properties", Form.toJson t.properties)]
  ofJson? v := do
    match ← slots? ["start_time", "stop_time", "confidence", "detection_properties"] v with
    | [start, stop, confidence, properties] =>
      return ⟨← start.required, ← stop.required, ← confidence.required, ← properties.required⟩
    | _ => none

instance : Form GenericTrack where
  toJson t :=
    record
      [("confidence", Form.toJson t.confidence),
        ("detection_properties", Form.toJson t.properties)]
  ofJson? v := do
    match ← slots? ["confidence", "detection_properties"] v with
    | [confidence, properties] => return ⟨← confidence.required, ← properties.required⟩
    | _ => none

end LiveDetection
