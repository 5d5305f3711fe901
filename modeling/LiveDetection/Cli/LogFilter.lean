import LiveDetection.Number.Digits
import LiveDetection.Text.Blank
import LiveDetection.Text.Letters

/-!
# Log filters

A log filter is a list of directives between commas. A directive names a target, spans and
fields to which it applies, each of which may be missing, and the level from which on lines
are wanted. Of the directives that apply to a line the one with the longest target decides.
-/

namespace LiveDetection.Cli

/-- How detailed a log is. -/
inductive LogLevel where
  | off
  | error
  | warn
  | info
  | debug
  | trace
deriving DecidableEq, Repr

namespace LogLevel

/-- The levels with their names and numbers. -/
def names : List (String × LogLevel) :=
  [("off", off), ("error", error), ("warn", warn), ("info", info), ("debug", debug),
    ("trace", trace), ("0", off), ("1", error), ("2", warn), ("3", info), ("4", debug),
    ("5", trace)]

/-- A number without a plus sign and without leading zeros. -/
def normalNumber (text : List Char) : List Char :=
  let digits := if text.head? = some '+' then text.drop 1 else text
  match spanDigits digits with
  | (d :: ds, []) => digitText (digitsOf (ofDigits (d :: ds)))
  | _ => text

/-- The level of a name, in any case, or of a number. -/
def ofText? (text : List Char) : Option LogLevel :=
  names.lookup (String.ofList ((normalNumber text).map Char.toLower))

end LogLevel

/-- A field that a directive asks for. -/
structure FieldMatch where
  name : String
  /-- Whether the directive asks for a value of the field too. -/
  hasValue : Bool
deriving DecidableEq, Repr

/-- A part of a log filter. -/
structure LogDirective where
  target : Option String := none
  /-- Whether the directive is about spans. -/
  hasSpan : Bool := false
  fields : List FieldMatch := []
  level : LogLevel := .trace
deriving DecidableEq, Repr

namespace LogDirective

/-- What a directive is read as next, with the position at which the part under way began. -/
inductive Stage where
  | start
  | levelOrTarget (start : Nat)
  | span (start : Nat)
  | field (start : Nat)
  | fields
  | target
  | level (start : Nat)
deriving DecidableEq, Repr

/-- The part of a text between two positions. -/
def cut (text : List Char) (start stop : Nat) : List Char := (text.take stop).drop start

/-- The field of a text, a name with or without a value. -/
def fieldOf (text : List Char) : FieldMatch :=
  ⟨String.ofList (text.takeWhile (· ≠ '=')), text.contains '='⟩

/-- The stage and the directive after one more character. -/
def step (text : List Char) (position : Nat) (c : Char) (stage : Stage) (d : LogDirective) :
    Option (Stage × LogDirective) :=
  match stage, c with
  | .start, '[' => some (.span (position + 1), d)
  | .start, c =>
    if isLetterOrDigit c ∨ c = '-' ∨ c = ':' ∨ c = '_' then some (.levelOrTarget position, d)
    else none
  | .levelOrTarget start, '=' =>
    some (.level (position + 1), { d with target := some (.ofList (cut text start position)) })
  | .levelOrTarget start, '[' =>
    some (.span (position + 1), { d with target := some (.ofList (cut text start position)) })
  | .target, '=' => some (.level (position + 1), d)
  | .target, _ => none
  | .span _, ']' => some (.target, { d with hasSpan := true })
  | .span start, '\x7b' =>
    some (.field (position + 1), { d with hasSpan := !(cut text start position).isEmpty })
  | .field start, '\x7d' =>
    match cut text start position with
    | [] => none
    | field => some (.fields, { d with fields := d.fields ++ [fieldOf field] })
  | .fields, ']' => some (.target, d)
  | .fields, _ => none
  | stage, _ => some (stage, d)

/-- The directive at the end of the text. A word alone is a level or else a target. -/
def finish (text : List Char) (stage : Stage) (d : LogDirective) : Option LogDirective :=
  match stage with
  | .levelOrTarget start =>
    match LogLevel.ofText? (text.drop start) with
    | some level => some { d with level := level }
    | none => some { d with target := some (.ofList (text.drop start)) }
  | .level start =>
    match text.drop start with
    | [] => some d
    | level => (LogLevel.ofText? level).map fun level => { d with level := level }
  | .target => some d
  | _ => none

/-- Read the characters from a position on. -/
def scan (text : List Char) : Nat → List Char → Stage → LogDirective → Option LogDirective
  | _, [], stage, d => finish text stage d
  | position, c :: rest, stage, d =>
    match step text position c stage d with
    | some (stage, d) => scan text (position + 1) rest stage d
    | none => none

/-- The directive of a text. White space around it is not read, but positions count from the
first character that is. -/
def ofText? (text : String) : Option LogDirective :=
  scan text.toList 0 (trimBlank text).toList .start {}

/-- Whether the directive applies to plain lines of a target, whose only field is the message. -/
def appliesTo (d : LogDirective) (target : String) : Bool :=
  !d.hasSpan && d.fields.all (fun f => !f.hasValue && f.name == "message") &&
    d.target.all fun start => start.toList.isPrefixOf target.toList

/-- How specific a directive is: the longer the target, then the more fields, the more. -/
def specificity (d : LogDirective) : Nat × Nat :=
  (match d.target with
    | some target => target.length + 1
    | none => 0, d.fields.length)

/-- Whether a directive is at least as specific as another. -/
def atLeast (d e : LogDirective) : Bool :=
  let a := d.specificity
  let b := e.specificity
  b.1 < a.1 || (b.1 == a.1 && b.2 ≤ a.2)

end LogDirective

/-- A log filter. -/
structure LogFilter where
  directives : List LogDirective
deriving DecidableEq, Repr

namespace LogFilter

/-- The texts between the commas of a filter, empty ones left out. -/
def pieces (text : List Char) : List (List Char) :=
  match text with
  | [] => []
  | c :: rest =>
    if c = ',' then pieces rest
    else (c :: rest.takeWhile (· ≠ ',')) :: pieces (rest.dropWhile (· ≠ ','))
termination_by text.length
decreasing_by
  · simp
  · have := (List.dropWhile_suffix (l := rest) (· ≠ ',')).length_le
    simp only [List.length_cons]
    omega

/-- The filter of a text. -/
def ofText? (text : String) : Option LogFilter :=
  ((pieces text.toList).mapM fun piece => LogDirective.ofText? (String.ofList piece)).map .mk

/-- The directive that decides about plain lines of a target. Of equally specific directives the
last decides. -/
def deciding? (f : LogFilter) (target : String) : Option LogDirective :=
  (f.directives.filter (·.appliesTo target)).foldl
    (fun best d =>
      match best with
      | some e => if d.atLeast e then some d else some e
      | none => some d)
    none

/-- Whether errors of a target are shown. Without a directive that applies nothing is. -/
def showsErrors (f : LogFilter) (target : String) : Bool :=
  match f.deciding? target with
  | some d => d.level ≠ .off
  | none => false

end LogFilter

end LiveDetection.Cli
