import LiveDetection.Json.Form
import LiveDetection.Message.Basic

/-!
# Messages in JSON

The value of a property stands beside the name of its type.
-/

namespace LiveDetection

open Json

instance : Form PropertyValue where
  toJson
    | .string value =>
      record [("type", Form.toJson PropertyType.string.name), ("value", Form.toJson value)]
    | .int value =>
      record [("type", Form.toJson PropertyType.int.name), ("value", Form.toJson value)]
    | .long value =>
      record [("type", Form.toJson PropertyType.long.name), ("value", Form.toJson value)]
  ofJson? v := do
    match ← slots? ["type", "value"] v with
    | [.given type, value] =>
      let name ← case? type
      if name = PropertyType.string.name then return .string (← value.required)
      else if name = PropertyType.int.name then return .int (← value.required)
      else if name = PropertyType.long.name then return .long (← value.required)
      else none
    | _ => none

instance : Form Property where
  toJson p := record [("name", Form.toJson p.name), ("value", Form.toJson p.value)]
  ofJson? v := do
    match ← slots? ["name", "value"] v with
    | [name, value] => return ⟨← name.required, ← value.required⟩
    | _ => none

instance : Form Message where
  toJson m := record [("properties", Form.toJson m.properties), ("body", Form.toJson m.body)]
  ofJson? v := do
    match ← slots? ["properties", "body"] v with
    | [properties, body] => return ⟨← properties.required, ← body.orNone⟩
    | _ => none

end LiveDetection
