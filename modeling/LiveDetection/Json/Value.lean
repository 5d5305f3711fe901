/-!
# JSON values

A JSON value as it is written: texts keep their escapes and numbers their digits, and an
object keeps its members in order, repeated names included. So the tree of a text says
nothing yet about what the text means to a type; that is decided when a value is decoded.
-/

namespace LiveDetection.Json

/-- One unit of a text between quotes. -/
inductive TextUnit where
  /-- A character that stands for itself. -/
  | plain (c : Char)
  /-- A character that is written with an escape of one letter. -/
  | escaped (c : Char)
  /-- A 16-bit code unit, written with four hexadecimal digits. -/
  | coded (unit : Nat)
deriving DecidableEq, Repr

/-- The power of ten behind a number. -/
structure Exponent where
  negative : Bool
  digits : List Nat
deriving DecidableEq, Repr

/-- A number as it is written. -/
structure Number where
  negative : Bool := false
  whole : List Nat
  /-- The digits after the point; without a point there are none. -/
  fraction : List Nat := []
  exponent : Option Exponent := none
deriving DecidableEq, Repr

/-- A value as it is written. -/
inductive Value where
  | null
  | boolean (value : Bool)
  | number (value : Number)
  | text (units : List TextUnit)
  | array (elements : List Value)
  | object (members : List (List TextUnit × Value))
deriving Repr, Inhabited

end LiveDetection.Json
