import LiveDetection.Message.Json
import LiveDetection.Proofs.Json.Form

/-!
# Messages in JSON read back

The types of property values keep their names apart, so a value is read as the type that it was
written with, and a message is read back with its properties in their order.
-/

namespace LiveDetection

open Json

/-- A value is read from the member beside the name of its type, as that type says. -/
theorem PropertyValue.ofJson?_of_slots? {v type : Value} {name : String} {value : Slot}
    (h : slots? ["type", "value"] v = some [.given type, value]) (hcase : case? type = some name) :
    (Form.ofJson? v : Option PropertyValue) =
      if name = PropertyType.string.name then value.required.map string
      else if name = PropertyType.int.name then value.required.map int
      else if name = PropertyType.long.name then value.required.map long
      else none := by
  simp only [Form.ofJson?, h, hcase, Option.bind_eq_bind, Option.bind_some, Option.pure_def,
    Option.map_eq_bind]
  rfl

instance : LawfulForm PropertyValue where
  wellFormed_toJson v := by
    cases v <;> exact wellFormed_pair (wellFormed_toJson _) (wellFormed_toJson _)
  ofJson?_toJson v := by
    cases v <;>
      refine (PropertyValue.ofJson?_of_slots? (slots?_pair (by decide) _ _)
        (case?_toJson _)).trans ?_ <;>
      simp [PropertyType.name]

/-- A property is read from the two members of its form. -/
theorem Property.ofJson?_of_slots? {v : Value} {name value : Slot}
    (h : slots? ["name", "value"] v = some [name, value]) :
    Form.ofJson? v = do return Property.mk (← name.required) (← value.required) := by
  simp only [Form.ofJson?, h]
  rfl

instance : LawfulForm Property where
  wellFormed_toJson p := wellFormed_pair (wellFormed_toJson p.name) (wellFormed_toJson p.value)
  ofJson?_toJson p := by
    refine (Property.ofJson?_of_slots? (slots?_pair (by decide) _ _)).trans ?_
    simp

/-- A message is read from the two members of its form. -/
theorem Message.ofJson?_of_slots? {v : Value} {properties body : Slot}
    (h : slots? ["properties", "body"] v = some [properties, body]) :
    Form.ofJson? v = do return Message.mk (← properties.required) (← body.orNone) := by
  simp only [Form.ofJson?, h]
  rfl

/-- A message without a body differs from one with an empty body. -/
instance : LawfulForm Message where
  wellFormed_toJson m :=
    wellFormed_pair (wellFormed_toJson m.properties) (wellFormed_toJson m.body)
  ofJson?_toJson m := by
    refine (Message.ofJson?_of_slots? (slots?_pair (by decide) _ _)).trans ?_
    simp

end LiveDetection
