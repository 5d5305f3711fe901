/-!
# Messages

A message is a list of named header properties and an optional body of bytes. The list
behaves as a map in insertion order: a name is looked up at its first occurrence, setting
a present name changes that occurrence, and a new name goes to the end.
-/

namespace LiveDetection

/-- The value of a header property. -/
inductive PropertyValue where
  | string (value : String)
  | int (value : Int32)
  | long (value : Int64)
deriving DecidableEq, Repr

/-- The type of a header property. -/
inductive PropertyType where
  | string
  | int
  | long
deriving DecidableEq, Repr

/-- The name of a property type. -/
def PropertyType.name : PropertyType → String
  | string => "string"
  | int => "int"
  | long => "long"

/-- A named header value. -/
structure Property where
  name : String
  value : PropertyValue
deriving DecidableEq, Repr

/-- Header properties and an optional body. -/
structure Message where
  properties : List Property := []
  body : Option (List UInt8) := none
deriving DecidableEq, Repr, Inhabited

/-- Why a message does not give or take a value. -/
inductive CodecError where
  | missingProperty (name : String)
  | wrongPropertyType (name : String) (expected : PropertyType)
  /-- The body would be too large for its format. -/
  | bodyTooLarge
deriving DecidableEq, Repr

/-- The wording of a codec error. -/
def CodecError.message : CodecError → String
  | missingProperty name => "message is missing the " ++ name ++ " property"
  | wrongPropertyType name expected =>
    "message property " ++ name ++ " is not a " ++ expected.name
  | bodyTooLarge => "failed to encode message body: the archive is too large"

namespace Message

/-- The message without properties and body. -/
def empty : Message := {}

/-- Give the first property of a name a new value; a new name goes to the end. -/
def setProperty (name : String) (value : PropertyValue) : List Property → List Property
  | [] => [⟨name, value⟩]
  | p :: rest =>
    if p.name = name then ⟨name, value⟩ :: rest else p :: setProperty name value rest

/-- The message with `value` under `name`. -/
def set (m : Message) (name : String) (value : PropertyValue) : Message :=
  { m with properties := setProperty name value m.properties }

/-- The message with a text under `name`. -/
def setString (m : Message) (name value : String) : Message := m.set name (.string value)

/-- The message with a 32-bit number under `name`. -/
def setInt (m : Message) (name : String) (value : Int32) : Message := m.set name (.int value)

/-- The message with a 64-bit number under `name`. -/
def setLong (m : Message) (name : String) (value : Int64) : Message := m.set name (.long value)

/-- The message with another body. -/
def setBody (m : Message) (body : List UInt8) : Message := { m with body := some body }

/-- The value of the first property of a name. -/
def property? (m : Message) (name : String) : Option PropertyValue :=
  (m.properties.find? (fun p => p.name == name)).map (·.value)

/-- The value under a name, which has to be there. -/
def require (m : Message) (name : String) : Except CodecError PropertyValue :=
  match m.property? name with
  | some value => .ok value
  | none => .error (.missingProperty name)

/-- The text under a name. -/
def string (m : Message) (name : String) : Except CodecError String := do
  match ← m.require name with
  | .string value => .ok value
  | _ => .error (.wrongPropertyType name .string)

/-- The 32-bit number under a name. -/
def int (m : Message) (name : String) : Except CodecError Int32 := do
  match ← m.require name with
  | .int value => .ok value
  | _ => .error (.wrongPropertyType name .int)

/-- The 64-bit number under a name. A 32-bit number widens. -/
def long (m : Message) (name : String) : Except CodecError Int64 := do
  match ← m.require name with
  | .long value => .ok value
  | .int value => .ok value.toInt64
  | .string _ => .error (.wrongPropertyType name .long)

@[simp] theorem property?_empty (name : String) : empty.property? name = none := rfl

/-- A name that was set has the value it was set to. -/
@[simp] theorem property?_set_self (m : Message) (name : String) (value : PropertyValue) :
    (m.set name value).property? name = some value := by
  obtain ⟨properties, body⟩ := m
  simp only [set, property?]
  induction properties with
  | nil => simp [setProperty]
  | cons p rest ih =>
    by_cases h : p.name = name
    · simp [setProperty, h]
    · simpa [setProperty, h] using ih

/-- Setting one name leaves the values of the others. -/
theorem property?_set_of_ne (m : Message) {name other : String} (value : PropertyValue)
    (h : other ≠ name) : (m.set name value).property? other = m.property? other := by
  obtain ⟨properties, body⟩ := m
  simp only [set, property?]
  induction properties with
  | nil => simp [setProperty, h.symm]
  | cons p rest ih =>
    by_cases hp : p.name = name
    · have hne : ¬ name = other := fun e => h e.symm
      simp [setProperty, hp, hne]
    · by_cases ho : p.name = other
      · simp [setProperty, ho, h]
      · simpa [setProperty, hp, ho] using ih

end Message

end LiveDetection
