import LiveDetection.Toml.Scalar
import LiveDetection.Toml.Text

/-!
# Reading TOML

A document is a list of statements, one per line. Arrays and inline tables may go over many
lines and nest up to a limit. The readers of values, elements and entries call each other;
each call uses up a unit of fuel, and three units per character are enough.
-/

namespace LiveDetection.Toml

/-- How deep arrays and inline tables may nest. -/
def nestingLimit : Nat := 80

mutual

/-- A value at the front, and what follows it. Up to `depth` more arrays and inline tables may
nest. -/
def readValue : (fuel depth : Nat) → List Char → Option (Value × List Char)
  | 0, _, _ => none
  | fuel + 1, depth, s =>
    match s with
    | '"' :: rest => (readText .double rest).map fun t => (.text t.1, t.2)
    | '\'' :: rest => (readText .single rest).map fun t => (.text t.1, t.2)
    | '[' :: rest =>
      match depth with
      | 0 => none
      | depth + 1 =>
        (readElements fuel depth rest).map fun t => (.array .literal t.1, t.2)
    | '{' :: rest =>
      match depth with
      | 0 => none
      | depth + 1 =>
        (readEntries fuel depth .emptyInline rest).map fun t => (t.1.toValue, t.2)
    | s => readScalar s

/-- Elements up to the closing bracket, and what follows. -/
def readElements : (fuel depth : Nat) → List Char → Option (List Value × List Char)
  | 0, _, _ => none
  | fuel + 1, depth, s => do
    match ← skipLines false s with
    | ']' :: rest => return ([], rest)
    | s =>
      let (value, rest) ← readValue fuel depth s
      match ← skipLines false rest with
      | ']' :: rest => return ([value], rest)
      | ',' :: rest =>
        let (values, rest) ← readElements fuel depth rest
        return (value :: values, rest)
      | _ => none

/-- Entries up to the closing brace, added to an inline table, and what follows. -/
def readEntries : (fuel depth : Nat) → Table → List Char → Option (Table × List Char)
  | 0, _, _, _ => none
  | fuel + 1, depth, t, s => do
    match ← skipLines false s with
    | '}' :: rest => return (t, rest)
    | s =>
      let (path, rest) ← readKey s
      let rest ← takeChar '=' rest
      let (value, rest) ← readValue fuel depth (skipBlanks rest)
      let t ← t.addEntry path value
      match ← skipLines false rest with
      | '}' :: rest => return (t, rest)
      | ',' :: rest => readEntries fuel depth t rest
      | _ => none

end

/-- A statement at the front, and what follows it. -/
def readStatement (fuel : Nat) (s : List Char) : Option (Statement × List Char) :=
  match s with
  | '[' :: '[' :: rest => do
    let (path, rest) ← readKey (skipBlanks rest)
    return (.element path, ← takeChar ']' (← takeChar ']' rest))
  | '[' :: rest => do
    let (path, rest) ← readKey (skipBlanks rest)
    return (.header path, ← takeChar ']' rest)
  | s => do
    let (path, rest) ← readKey s
    let rest ← takeChar '=' rest
    let (value, rest) ← readValue fuel nestingLimit (skipBlanks rest)
    return (.entry path value, rest)

/-- All statements of a text. -/
def readStatements : (fuel : Nat) → List Char → Option (List Statement)
  | 0, _ => none
  | fuel + 1, s => do
    match ← skipLines false s with
    | [] => return []
    | s =>
      let (statement, rest) ← readStatement fuel s
      let statements ← readStatements fuel (← endLine false rest)
      return statement :: statements

/-- A mark of the byte order at the front does not count. -/
def dropByteOrderMark : List Char → List Char
  | '\uFEFF' :: rest => rest
  | s => s

/-- The document of a text. -/
def read? (text : String) : Option Table :=
  (readStatements (3 * text.length + 3) (dropByteOrderMark text.toList)).bind
    Table.ofStatements?

end LiveDetection.Toml
