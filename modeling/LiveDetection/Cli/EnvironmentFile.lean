import LiveDetection.Environment
import LiveDetection.Text.Letters

/-!
# Environment files

A file of assignments gives values to variables that are not set. Assignments may have
quotes, escapes, comments and references to other variables. The first that is wrong ends
the file; what stands before it counts.
-/

namespace LiveDetection.Cli.EnvironmentFile

/-- Where in an assignment a line stands, as far as its extent is concerned. -/
inductive Extent where
  | complete
  | blank
  | escape
  | double
  | doubleEscape
  | single
  | singleEscape
deriving DecidableEq, Repr

/-- What follows a character outside of quotes. -/
def Extent.afterOpen (c : Char) : Extent :=
  if c = '\\' then escape else if c = '"' then double else if c = '\'' then single else complete

/-- The extent after one more character. -/
def Extent.next (e : Extent) (c : Char) : Extent :=
  match e with
  | complete => if isBlankChar c ∧ c ≠ '\n' ∧ c ≠ '\r' then blank else afterOpen c
  | blank => afterOpen c
  | escape => complete
  | double => if c = '\\' then doubleEscape else if c = '"' then complete else double
  | doubleEscape => double
  | single => if c = '\\' then singleEscape else if c = '\'' then complete else single
  | singleEscape => single

/-- The extent at the end of a line, and the part of the line before its comment if it has one. -/
def scanLine (e : Extent) : List Char → Extent × Option (List Char)
  | [] => (e, none)
  | c :: rest =>
    if e = .blank ∧ c = '#' then (e, some [])
    else
      let later := scanLine (e.next c) rest
      (later.1, later.2.map (c :: ·))

/-- The lines of a text, each with its newline. -/
def linesOf : List Char → List (List Char)
  | [] => []
  | c :: rest =>
    if c = '\n' then [c] :: linesOf rest
    else
      match linesOf rest with
      | [] => [[c]]
      | line :: lines => (c :: line) :: lines

/-- A line without its end. -/
def dropLineEnd (line : List Char) : List Char :=
  if line.getLast? = some '\n' then
    if line.dropLast.getLast? = some '\r' then line.dropLast.dropLast else line.dropLast
  else line

/-- The assignments of a file, which may go over many lines. One that does not end is none. -/
def assignmentTexts (e : Extent) (before : List Char) :
    List (List Char) → List (Option (List Char))
  | [] => if e = .complete then [] else [none]
  | line :: rest =>
    let text := before ++ line
    if (text.dropWhile isBlankChar).head? = some '#' then assignmentTexts .complete [] rest
    else
      match scanLine e line with
      | (_, some kept) => some (before ++ kept) :: assignmentTexts .complete [] rest
      | (.complete, none) => some (dropLineEnd text) :: assignmentTexts .complete [] rest
      | (e, none) => assignmentTexts e text rest

/-- What the value of an assignment is about to read. -/
inductive ValueMode where
  /-- Text outside of quotes. -/
  | bare
  /-- A character after a backslash; `true` within double quotes. -/
  | escaped (quoted : Bool)
  | single
  | double
  /-- The name of a variable; `true` within double quotes. -/
  | name (text : List Char) (quoted : Bool)
  /-- The name of a variable in braces; `true` within double quotes. -/
  | braced (text : List Char) (quoted : Bool)
  /-- Nothing but blanks and a comment. -/
  | done
deriving DecidableEq, Repr

/-- The mode outside of names and escapes. -/
def ValueMode.resting (quoted : Bool) : ValueMode := if quoted then double else bare

/-- The characters that a backslash may precede, with what they stand for. -/
def escapes : List (Char × Char) :=
  [('\\', '\\'), ('\'', '\''), ('"', '"'), ('$', '$'), (' ', ' '), ('n', '\n')]

/-- The value of a variable, or nothing. -/
def valueOf (e : Environment) (name : List Char) : List Char :=
  ((e.get? (String.ofList name)).getD "").toList

/-- The text of a value. -/
def readValue (e : Environment) : ValueMode → List Char → Option (List Char)
  | .done, c :: rest =>
    if c = ' ' ∨ c = '\t' then readValue e .done rest else if c = '#' then some [] else none
  | .escaped quoted, c :: rest => do
    let meaning ← escapes.lookup c
    return meaning :: (← readValue e (.resting quoted) rest)
  | .single, c :: rest =>
    if c = '\'' then readValue e .bare rest else (readValue e .single rest).map (c :: ·)
  | .braced text quoted, c :: rest =>
    if isLetterOrDigit c then readValue e (.braced (text ++ [c]) quoted) rest
    else if c = '\x7d' then (readValue e (.resting quoted) rest).map (valueOf e text ++ ·)
    else readValue e (.braced (text ++ [c]) quoted) rest
  | .name text quoted, c :: rest =>
    if isLetterOrDigit c then readValue e (.name (text ++ [c]) quoted) rest
    else if c = '\x7b' ∧ text = [] then readValue e (.braced [] quoted) rest
    else if c = '$' then (readValue e (.name [] quoted) rest).map (valueOf e text ++ ·)
    else (readValue e (.resting quoted) rest).map (valueOf e text ++ c :: ·)
  | .double, c :: rest =>
    if c = '$' then readValue e (.name [] true) rest
    else if c = '"' then readValue e .bare rest
    else if c = '\\' then readValue e (.escaped true) rest
    else (readValue e .double rest).map (c :: ·)
  | .bare, c :: rest =>
    if c = '$' then readValue e (.name [] false) rest
    else if c = '\'' then readValue e .single rest
    else if c = '"' then readValue e .double rest
    else if c = '\\' then readValue e (.escaped false) rest
    else if c = ' ' ∨ c = '\t' then readValue e .done rest
    else (readValue e .bare rest).map (c :: ·)
  | .bare, [] => some []
  | .done, [] => some []
  | .escaped quoted, [] => if quoted then none else some []
  | .name text quoted, [] => if quoted then none else some (valueOf e text)
  | .single, [] => none
  | .double, [] => none
  | .braced _ _, [] => none

/-- Whether a character may start the name of a variable. -/
def isNameStart (c : Char) : Bool := c.isAlpha || c == '_'

/-- Whether a character may stand in the name of a variable. -/
def isNameChar (c : Char) : Bool := c.isAlphanum || c == '_' || c == '.'

/-- What follows the white space at the front. -/
def skipBlanks (s : List Char) : List Char := s.dropWhile isBlankChar

/-- The name of a variable at the front, and what follows it and the blanks behind it. -/
def takeName (s : List Char) : Option (String × List Char) :=
  match s with
  | c :: _ =>
    if isNameStart c then
      some (String.ofList (s.takeWhile isNameChar), skipBlanks (s.dropWhile isNameChar))
    else none
  | [] => none

/-- What follows an equals sign and the blanks behind it. -/
def takeEquals : List Char → Option (List Char)
  | '=' :: rest => some (skipBlanks rest)
  | _ => none

/-- The variable and the spelled value of an assignment. The word `export` may stand in front. -/
def splitAssignment (s : List Char) : Option (String × List Char) := do
  let (name, rest) ← takeName s
  match takeEquals rest with
  | some value => return (name, value)
  | none =>
    if name = "export" then
      let (name, rest) ← takeName rest
      return (name, ← takeEquals rest)
    else none

/-- The environment after an assignment. A variable that is set keeps its value. -/
def assign (e : Environment) (text : List Char) : Option Environment :=
  let s := trimBlanks text
  if s = [] ∨ s.head? = some '#' then some e
  else do
    let (name, spelled) ← splitAssignment s
    let value ←
      if spelled = [] ∨ spelled.head? = some '#' then some [] else readValue e .bare spelled
    return if (e.get? name).isSome then e else e.set name (String.ofList value)

/-- The environment after assignments, up to the first that is wrong. -/
def assignAll (e : Environment) : List (Option (List Char)) → Environment
  | some text :: rest =>
    match assign e text with
    | some e => assignAll e rest
    | none => e
  | none :: _ => e
  | [] => e

/-- The environment after all assignments of a file. A mark of the byte order at its front does
not count. -/
def apply (content : String) (e : Environment) : Environment :=
  let text := match content.toList with
    | '\uFEFF' :: rest => rest
    | text => text
  assignAll e (assignmentTexts .complete [] (linesOf text))

end LiveDetection.Cli.EnvironmentFile
