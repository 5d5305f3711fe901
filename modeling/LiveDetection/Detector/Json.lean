import LiveDetection.Detector.Basic
import LiveDetection.Json.Form

/-!
# Media kinds in JSON
-/

namespace LiveDetection

open Json

instance : Form MediaKind where
  toJson kind := Form.toJson kind.name
  ofJson? v := (case? v).bind MediaKind.ofName?

end LiveDetection
