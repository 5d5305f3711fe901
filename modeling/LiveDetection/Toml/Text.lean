import LiveDetection.Number.Radix
import LiveDetection.Toml.Gap

/-!
# TOML texts and keys

A text stands between double quotes, where a backslash starts an escape, or between single
quotes, where nothing does. Between three quotes a text may have many lines: a line end
right after the opening quotes does not count, up to two quotes may stand before the
closing ones, and a backslash at the end of a line takes away all blanks and line ends that
follow.
-/

namespace LiveDetection.Toml

/-- The character with a number, if the number is a scalar value. -/
def scalarChar? (n : Nat) : Option Char :=
  if n < 0xD800 ∨ (0xE000 ≤ n ∧ n < 0x110000) then some (Char.ofNat n) else none

/-- The character of an escape with a number of hexadecimal digits at the front, and how many
characters the escape takes after its backslash. -/
def codeEscape? (count : Nat) (s : List Char) : Option (Char × Nat) :=
  if s.length < count then none
  else ((ofRadixText? 16 (s.take count)).bind scalarChar?).map (·, count + 1)

/-- The character of the escape at the front, and how many characters the escape takes after
its backslash. -/
def escape? : List Char → Option (Char × Nat)
  | 'b' :: _ => some ('\x08', 1)
  | 't' :: _ => some ('\t', 1)
  | 'n' :: _ => some ('\n', 1)
  | 'f' :: _ => some ('\x0c', 1)
  | 'r' :: _ => some ('\r', 1)
  | 'e' :: _ => some ('\x1b', 1)
  | '"' :: _ => some ('"', 1)
  | '\\' :: _ => some ('\\', 1)
  | 'x' :: rest => codeEscape? 2 rest
  | 'u' :: rest => codeEscape? 4 rest
  | 'U' :: rest => codeEscape? 8 rest
  | _ => none

/-- The two kinds of quotes. -/
inductive Quote where
  | double
  | single
deriving DecidableEq, Repr

/-- The character of a quote. -/
def Quote.char : Quote → Char
  | double => '"'
  | single => '\''

/-- The text of one line up to its closing quote, and what follows. -/
def readLineText (quote : Quote) (s : List Char) : Option (List Char × List Char) :=
  match s with
  | [] => none
  | c :: rest =>
    if c = quote.char then some ([], rest)
    else if quote = .double ∧ c = '\\' then
      match escape? rest with
      | some (e, used) => (readLineText quote (rest.drop used)).map fun t => (e :: t.1, t.2)
      | none => none
    else if isPrintable c then (readLineText quote rest).map fun t => (c :: t.1, t.2)
    else none
termination_by s.length
decreasing_by all_goals simp only [List.length_drop, List.length_cons]; omega

/-- What a text of many lines is about to read. -/
inductive LineMode where
  /-- Characters of the text. -/
  | content
  /-- The rest of a line after a backslash. -/
  | lineEnd
  /-- Blanks and line ends that do not count. -/
  | skipping
deriving DecidableEq, Repr

/-- Whether a backslash is the last thing in its line but for blanks. -/
def endsLine (s : List Char) : Bool :=
  match skipBlanks s with
  | '\n' :: _ => true
  | '\r' :: '\n' :: _ => true
  | _ => false

/-- The quotes of the text before the closing quotes at the front, and what follows. -/
def closing? (quote : Char) : List Char → Option (List Char × List Char)
  | a :: b :: c :: rest =>
    if a = quote ∧ b = quote ∧ c = quote then
      let more := (rest.take 2).takeWhile (· == quote)
      some (more, rest.drop more.length)
    else none
  | _ => none

/-- The text of many lines up to its closing quotes, and what follows. -/
def readLinesText (quote : Quote) (mode : LineMode) (s : List Char) :
    Option (List Char × List Char) :=
  match s with
  | [] => none
  | c :: rest =>
    match mode with
    | .lineEnd =>
      if c = '\n' then readLinesText quote .skipping rest
      else readLinesText quote .lineEnd rest
    | .skipping | .content =>
      if mode = .skipping ∧ (isBlank c ∨ c = '\n' ∨ (c = '\r' ∧ rest.head? = some '\n')) then
        readLinesText quote .skipping rest
      else
        match closing? quote.char (c :: rest) with
        | some done => some done
        | none =>
          if quote = .double ∧ c = '\\' then
            if endsLine rest then readLinesText quote .lineEnd rest
            else
              match escape? rest with
              | some (e, used) =>
                (readLinesText quote .content (rest.drop used)).map fun t => (e :: t.1, t.2)
              | none => none
          else if isPrintable c ∨ c = '\n' ∨ (c = '\r' ∧ rest.head? = some '\n') then
            (readLinesText quote .content rest).map fun t => (c :: t.1, t.2)
          else none
termination_by s.length
decreasing_by all_goals simp only [List.length_drop, List.length_cons]; omega

/-- A line end right after opening quotes does not count. -/
def dropLineEnd : List Char → List Char
  | '\n' :: rest => rest
  | '\r' :: '\n' :: rest => rest
  | s => s

/-- A text after its first quote, and what follows it. -/
def readText (quote : Quote) (s : List Char) : Option (String × List Char) :=
  match s with
  | a :: b :: rest =>
    if a = quote.char ∧ b = quote.char then
      (readLinesText quote .content (dropLineEnd rest)).map fun t => (String.ofList t.1, t.2)
    else (readLineText quote (a :: b :: rest)).map fun t => (String.ofList t.1, t.2)
  | s => (readLineText quote s).map fun t => (String.ofList t.1, t.2)

/-- Whether a character may stand in a key without quotes. -/
def isKeyChar (c : Char) : Bool := c.isAlphanum || c == '-' || c == '_'

/-- One part of a key, and what follows it. -/
def readKeyPart : List Char → Option (String × List Char)
  | '"' :: rest => (readLineText .double rest).map fun t => (String.ofList t.1, t.2)
  | '\'' :: rest => (readLineText .single rest).map fun t => (String.ofList t.1, t.2)
  | s =>
    if s.takeWhile isKeyChar = [] then none
    else some (String.ofList (s.takeWhile isKeyChar), s.dropWhile isKeyChar)

/-- How many parts a key may have. -/
def keyPartLimit : Nat := 80

/-- A key of at most `parts` parts with dots between them, and what follows it and the blanks
behind it. -/
def readKeyParts : (parts : Nat) → List Char → Option (List String × List Char)
  | 0, _ => none
  | parts + 1, s => do
    let (key, rest) ← readKeyPart s
    match skipBlanks rest with
    | '.' :: rest =>
      let (path, rest) ← readKeyParts parts (skipBlanks rest)
      return (key :: path, rest)
    | rest => return ([key], rest)

/-- A key, and what follows it and the blanks behind it. -/
def readKey (s : List Char) : Option (List String × List Char) := readKeyParts keyPartLimit s

end LiveDetection.Toml
