import LiveDetection.Json.Number
import LiveDetection.Json.Text

/-!
# Writing JSON

Values are written without gaps, members and elements in their order.
-/

namespace LiveDetection.Json

mutual

/-- How a value is written. -/
def writeValue : Value → List Char
  | .null => ['n', 'u', 'l', 'l']
  | .boolean true => ['t', 'r', 'u', 'e']
  | .boolean false => ['f', 'a', 'l', 's', 'e']
  | .number n => writeNumber n
  | .text units => writeUnits units
  | .array elements => '[' :: writeElements elements
  | .object members => '{' :: writeMembers members

/-- How elements are written, closing bracket included. -/
def writeElements : List Value → List Char
  | [] => [']']
  | [value] => writeValue value ++ [']']
  | value :: rest => writeValue value ++ ',' :: writeElements rest

/-- How members are written, closing brace included. -/
def writeMembers : List (List TextUnit × Value) → List Char
  | [] => ['}']
  | [(name, value)] => writeUnits name ++ ':' :: (writeValue value ++ ['}'])
  | (name, value) :: rest =>
    writeUnits name ++ ':' :: (writeValue value ++ ',' :: writeMembers rest)

end

/-- The text of a value. -/
def print (value : Value) : String := String.ofList (writeValue value)

end LiveDetection.Json
