import LiveDetection.Json.Number
import LiveDetection.Json.Text

/-!
# Reading JSON

A reader takes a value from the front of a list of characters and says what follows it.
Values nest, so the readers of values, elements and members call each other; each call
uses up a unit of fuel, and two units per character are enough.
-/

namespace LiveDetection.Json

/-- Whether a character may stand between the parts of a value. -/
def isGap (c : Char) : Bool := c == ' ' || c == '\t' || c == '\n' || c == '\r'

/-- What follows the gap at the front. -/
def skipGap (s : List Char) : List Char := s.dropWhile isGap

mutual

/-- A value at the front, after a gap. -/
def readValue : (fuel : Nat) → List Char → Option (Value × List Char)
  | 0, _ => none
  | fuel + 1, s =>
    match skipGap s with
    | 'n' :: 'u' :: 'l' :: 'l' :: rest => some (.null, rest)
    | 't' :: 'r' :: 'u' :: 'e' :: rest => some (.boolean true, rest)
    | 'f' :: 'a' :: 'l' :: 's' :: 'e' :: rest => some (.boolean false, rest)
    | '"' :: rest => do
      let (units, rest) ← readUnits rest
      return (.text units, rest)
    | '[' :: rest =>
      match skipGap rest with
      | ']' :: rest => some (.array [], rest)
      | rest => do
        let (elements, rest) ← readElements fuel rest
        return (.array elements, rest)
    | '{' :: rest =>
      match skipGap rest with
      | '}' :: rest => some (.object [], rest)
      | rest => do
        let (members, rest) ← readMembers fuel rest
        return (.object members, rest)
    | s => do
      let (number, rest) ← readNumber s
      return (.number number, rest)

/-- One or more elements up to the closing bracket. -/
def readElements : (fuel : Nat) → List Char → Option (List Value × List Char)
  | 0, _ => none
  | fuel + 1, s => do
    let (value, rest) ← readValue fuel s
    match skipGap rest with
    | ']' :: rest => return ([value], rest)
    | ',' :: rest =>
      let (values, rest) ← readElements fuel rest
      return (value :: values, rest)
    | _ => none

/-- One or more members up to the closing brace. -/
def readMembers : (fuel : Nat) → List Char → Option (List (List TextUnit × Value) × List Char)
  | 0, _ => none
  | fuel + 1, s => do
    match skipGap s with
    | '"' :: rest =>
      let (name, rest) ← readUnits rest
      match skipGap rest with
      | ':' :: rest =>
        let (value, rest) ← readValue fuel rest
        match skipGap rest with
        | '}' :: rest => return ([(name, value)], rest)
        | ',' :: rest =>
          let (members, rest) ← readMembers fuel rest
          return ((name, value) :: members, rest)
        | _ => none
      | _ => none
    | _ => none

end

/-- The value that a text consists of, gaps around it allowed. -/
def read? (text : String) : Option Value := do
  let (value, rest) ← readValue (2 * text.length + 2) text.toList
  if skipGap rest = [] then some value else none

end LiveDetection.Json
