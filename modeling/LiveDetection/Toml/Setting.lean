import LiveDetection.Failure
import LiveDetection.Number.Fit
import LiveDetection.Number.Rounding
import LiveDetection.Toml.Reader
import LiveDetection.Track.Basic

/-!
# Settings in TOML

How values of a document are read as settings. The entries of a table are visited in key
order, and the first one that cannot be read decides the error. Entries that no setting has
a name for are passed over, but their numbers have to be within range. Only when all
entries have been visited does a missing setting count.
-/

namespace LiveDetection.Toml

/-- A type whose values can be read from documents. -/
class Setting (α : Type) where
  /-- The setting that a value stands for. -/
  ofToml : Value → Except ConfigTextError α

/-- Whether an integer is within the widest range of integers. -/
def isWideInteger (n : Int) : Bool := -Int.pow 2 127 ≤ n && n < Int.pow 2 128

/-- Whether a number has a finite value at double precision, unless it is meant to have none.
Numbers far outside the range are decided by their number of digits alone. -/
def Real.isRepresentable : Real → Bool
  | decimal _ digits exponent =>
    let significant := digits.dropWhile (· == 0)
    let leading := exponent + significant.length
    if significant = [] ∨ leading < -400 then true
    else if leading > 400 then false
    else
      (BinaryFormat.double.round (ofDigits significant * Nat.pow 10 exponent.toNat)
        (Nat.pow 10 (-exponent).toNat)).isSome
  | infinite _ => true
  | undefined => true

mutual

/-- Whether a value that no setting asks for can be passed over. -/
def Value.isWithinRange : Value → Bool
  | .integer n => isWideInteger n
  | .real x => x.isRepresentable
  | .array _ elements => allWithinRange elements
  | .table _ entries => entriesWithinRange entries
  | _ => true

/-- Whether all elements can be passed over. -/
def allWithinRange : List Value → Bool
  | [] => true
  | value :: rest => value.isWithinRange && allWithinRange rest

/-- Whether all entries can be passed over. -/
def entriesWithinRange : List (String × Value) → Bool
  | [] => true
  | (_, value) :: rest => value.isWithinRange && entriesWithinRange rest

end

/-- A setting or the error of a document of the wrong shape. -/
def orMalformed {α : Type} : Option α → Except ConfigTextError α
  | some a => .ok a
  | none => .error .malformed

/-- The integer of a value. -/
def Value.integer? : Value → Option Int
  | .integer n => some n
  | _ => none

/-- The text of a value. -/
def Value.text? : Value → Option String
  | .text s => some s
  | _ => none

instance : Setting Int32 where
  ofToml v := orMalformed (v.integer?.bind int32OfInt?)

instance : Setting UInt64 where
  ofToml v := orMalformed (v.integer?.bind uint64OfInt?)

instance : Setting String where
  ofToml v := orMalformed v.text?

instance {α : Type} [Setting α] : Setting (Option α) where
  ofToml v := (Setting.ofToml v).map some

/-- The key under which a date or time presents its spelling as a table. -/
def momentKey : String := "$__toml_private_datetime"

/-- A date or time reads as a map of one entry. -/
instance : Setting Properties where
  ofToml
    | .table _ entries =>
      (entries.mapM fun entry => (Setting.ofToml entry.2).map (entry.1, ·)).map OrderedMap.ofList
    | .moment spelling => .ok (OrderedMap.empty.insert momentKey spelling)
    | _ => .error .malformed

/-- The entries of a record of settings, in the order in which they are visited. -/
structure Fields where
  given : List (String × Value)
  /-- Whether the entries stood in an array, without their names. -/
  positional : Bool

/-- The entries of a record with settings of the given names. An array lists the first of them
in their order. A date or time is a table in which no setting has an entry. -/
def Fields.of (names : List String) : Value → Except ConfigTextError Fields
  | .table _ entries => .ok ⟨entries, false⟩
  | .array _ elements => .ok ⟨names.zip elements, true⟩
  | .moment _ => .ok ⟨[], false⟩
  | _ => .error .malformed

/-- What is wrong with the value of an entry. -/
abbrev Check := Value → Except ConfigTextError Unit

/-- What is wrong with a value as a value of a type. -/
def check (α : Type) [Setting α] : Check := fun v =>
  match (Setting.ofToml v : Except ConfigTextError α) with
  | .ok _ => .ok ()
  | .error e => .error e

namespace Fields

variable {α : Type} [Setting α]

/-- Visit all entries, with the checks of the settings under their names. -/
def visit (checks : List (String × Check)) (f : Fields) : Except ConfigTextError Unit :=
  f.given.forM fun entry =>
    match checks.lookup entry.1 with
    | some check => check entry.2
    | none => if entry.2.isWithinRange then .ok () else .error .malformed

/-- A setting that has to be there. -/
def required (f : Fields) (name : String) : Except ConfigTextError α :=
  match f.given.lookup name with
  | some v => Setting.ofToml v
  | none => .error (if f.positional then .malformed else .missingField name)

/-- A setting with a default. -/
def orDefault (f : Fields) (name : String) (default : α) : Except ConfigTextError α :=
  match f.given.lookup name with
  | some v => Setting.ofToml v
  | none => .ok default

end Fields

/-- The visited entries of a record. -/
def fields (checks : List (String × Check)) (v : Value) : Except ConfigTextError Fields := do
  let f ← Fields.of (checks.map (·.1)) v
  f.visit checks
  return f

end LiveDetection.Toml
