import LiveDetection.Data.OrderedMap
import LiveDetection.Json.Printer
import LiveDetection.Json.Reader
import LiveDetection.Json.Single
import LiveDetection.Number.Fit

/-!
# Types with a JSON form

A type with a JSON form says how its values stand in a tree and which trees are read as
which value. A value has one form that is written, but several trees may be read as it: the
members of a record stand in any order, other members are ignored, and a record may also be
an array of its members in their order.
-/

namespace LiveDetection.Json

/-- A type whose values have a JSON form. -/
class Form (α : Type) where
  /-- The form of a value. -/
  toJson : α → Value
  /-- The value that a tree is read as. -/
  ofJson? : Value → Option α

/-- A type whose values can be names of members. -/
class MemberName (κ : Type) where
  /-- How a value is spelled as a name. -/
  toUnits : κ → List TextUnit
  /-- The value that a name stands for. -/
  ofUnits? : List TextUnit → Option κ

/-- The text of a value with a form. -/
def encode {α : Type} [Form α] (a : α) : String := print (Form.toJson a)

/-- The value of a text. -/
def decode? {α : Type} [Form α] (text : String) : Option α := (read? text).bind Form.ofJson?

/-- The integer of a tree. -/
def integer? : Value → Option Int
  | .number n => n.toInt?
  | _ => none

/-- How an integer stands in a tree. -/
def integerValue (n : Int) : Value := .number (.ofInt n)

instance : Form Int32 where
  toJson n := integerValue n.toInt
  ofJson? v := (integer? v).bind int32OfInt?

instance : Form Int64 where
  toJson n := integerValue n.toInt
  ofJson? v := (integer? v).bind int64OfInt?

instance : Form UInt64 where
  toJson n := integerValue n.toNat
  ofJson? v := (integer? v).bind uint64OfInt?

instance : Form UInt8 where
  toJson n := integerValue n.toNat
  ofJson? v := (integer? v).bind byteOfInt?

instance : Form Single where
  toJson := singleValue
  ofJson? := single?

instance : Form String where
  toJson text := .text (spell text)
  ofJson?
    | .text units => TextUnit.text? units
    | _ => none

variable {α κ : Type}

instance [Form α] : Form (Option α) where
  toJson
    | some a => Form.toJson a
    | none => .null
  ofJson?
    | .null => some none
    | v => (Form.ofJson? v).map some

instance [Form α] : Form (List α) where
  toJson values := .array (values.map Form.toJson)
  ofJson?
    | .array elements => elements.mapM Form.ofJson?
    | _ => none

instance : MemberName String where
  toUnits := spell
  ofUnits? := TextUnit.text?

/-- The character of a unit that stands for itself. -/
def TextUnit.plain? : TextUnit → Option Char
  | .plain c => some c
  | _ => none

/-- As a name, an integer is written out without escapes. -/
instance : MemberName Int32 where
  toUnits n := (writeNumber (.ofInt n.toInt)).map .plain
  ofUnits? units := do
    let (number, rest) ← readNumber (← units.mapM TextUnit.plain?)
    if rest = [] then number.toInt?.bind int32OfInt? else none

/-- The entry of a member. -/
def entry? [MemberName κ] [Form α] (member : List TextUnit × Value) : Option (κ × α) := do
  let key ← MemberName.ofUnits? member.1
  let value ← Form.ofJson? member.2
  return (key, value)

/-- A map has a member per entry, in key order. Of two members with one name the later wins. -/
instance [Ord κ] [Std.TransOrd κ] [Std.LawfulEqOrd κ] [MemberName κ] [Form α] :
    Form (OrderedMap κ α) where
  toJson m :=
    .object (m.entries.map fun entry => (MemberName.toUnits entry.1, Form.toJson entry.2))
  ofJson?
    | .object members => (members.mapM entry?).map OrderedMap.ofList
    | _ => none

/-- A record with named members. -/
def record (members : List (String × Value)) : Value :=
  .object (members.map fun m => (spell m.1, m.2))

/-- What a tree has to say about one member of a record. -/
inductive Slot where
  /-- The member is there. -/
  | given (value : Value)
  /-- No member has the name. -/
  | omitted
  /-- The array ends before the member. -/
  | beyond

/-- The slot of a name among members. A name must not occur twice. -/
def slot? (members : List (String × Value)) (name : String) : Option Slot :=
  match members.filter (·.1 == name) with
  | [] => some .omitted
  | [(_, value)] => some (.given value)
  | _ => none

/-- The slots of a record with the given names, in their order. -/
def slots? (names : List String) : Value → Option (List Slot)
  | .object members => do
    let named ← members.mapM fun m => (TextUnit.text? m.1).map (·, m.2)
    names.mapM (slot? named)
  | .array values =>
    if names.length < values.length then none
    else some (values.map .given ++ List.replicate (names.length - values.length) .beyond)
  | _ => none

namespace Slot

/-- The value of a member that has to be there. -/
def required [Form α] : Slot → Option α
  | given value => Form.ofJson? value
  | _ => none

/-- The value of a member with a default. -/
def orDefault [Form α] (default : α) : Slot → Option α
  | given value => Form.ofJson? value
  | _ => some default

/-- The value of a member that may be omitted, but that an array has to reach. -/
def orNone [Form α] : Slot → Option (Option α)
  | given value => Form.ofJson? value
  | omitted => some none
  | beyond => none

end Slot

/-- The name that a tree gives to one of several cases: a text, or an object with one member of
that name and no content. -/
def case? : Value → Option String
  | .text units => TextUnit.text? units
  | .object [(units, .null)] => TextUnit.text? units
  | _ => none

end LiveDetection.Json
