import LiveDetection.Json.Value
import LiveDetection.Number.Radix

/-!
# JSON texts

What the units of a text stand for, how a text is spelled in units, and how units are
written. A character beyond the sixteen-bit range may be coded as a pair of surrogates; a
surrogate without its partner stands for nothing.
-/

namespace LiveDetection.Json

/-- The escapes of one letter, with the characters that they stand for. -/
def letterEscapes : List (Char × Char) :=
  [('"', '"'), ('\\', '\\'), ('/', '/'), ('b', '\x08'), ('f', '\x0c'), ('n', '\n'),
    ('r', '\r'), ('t', '\t')]

/-- The character that an escape letter stands for. -/
def ofEscapeLetter? (letter : Char) : Option Char :=
  (letterEscapes.find? (·.1 == letter)).map (·.2)

/-- The escape letter of a character. -/
def escapeLetter? (c : Char) : Option Char :=
  (letterEscapes.find? (·.2 == c)).map (·.1)

/-- Whether a code unit is the first half of a pair. -/
def isHighSurrogate (unit : Nat) : Bool := 0xD800 ≤ unit && unit < 0xDC00

/-- Whether a code unit is the second half of a pair. -/
def isLowSurrogate (unit : Nat) : Bool := 0xDC00 ≤ unit && unit < 0xE000

/-- The character that a pair of surrogates stands for. -/
def pairedChar (high low : Nat) : Char :=
  Char.ofNat (0x10000 + (high - 0xD800) * 0x400 + (low - 0xDC00))

/-- The characters that units stand for, if every surrogate has its partner. -/
def assemble : List TextUnit → Option (List Char)
  | [] => some []
  | .plain c :: rest => (assemble rest).map (c :: ·)
  | .escaped c :: rest => (assemble rest).map (c :: ·)
  | .coded high :: .coded low :: rest =>
    if isHighSurrogate high then
      if isLowSurrogate low then (assemble rest).map (pairedChar high low :: ·) else none
    else if isLowSurrogate high then none
    else (assemble (.coded low :: rest)).map (Char.ofNat high :: ·)
  | .coded unit :: rest =>
    if isHighSurrogate unit || isLowSurrogate unit then none
    else (assemble rest).map (Char.ofNat unit :: ·)

/-- The unit that a character is spelled with. The solidus needs no escape. -/
def spellChar (c : Char) : TextUnit :=
  if c = '/' then .plain c
  else if (escapeLetter? c).isSome then .escaped c
  else if c.toNat < 0x20 then .coded c.toNat
  else .plain c

/-- The units that a text is spelled with. -/
def spell (text : String) : List TextUnit := text.toList.map spellChar

/-- The text that units stand for. -/
def TextUnit.text? (units : List TextUnit) : Option String :=
  (assemble units).map String.ofList

/-- Four hexadecimal digits. -/
def hexDigits (n : Nat) : List Char :=
  [digitFor (n / 0x1000 % 16), digitFor (n / 0x100 % 16), digitFor (n / 0x10 % 16),
    digitFor (n % 16)]

/-- How a unit is written. -/
def writeUnit : TextUnit → List Char
  | .plain c => [c]
  | .escaped c => ['\\', (escapeLetter? c).getD c]
  | .coded unit => '\\' :: 'u' :: hexDigits unit

/-- How a text is written, quotes included. -/
def writeUnits (units : List TextUnit) : List Char :=
  '"' :: units.flatMap writeUnit ++ ['"']

/-- The units up to the closing quote, and what follows it. Characters below the blank have to
be escaped. -/
def readUnits : List Char → Option (List TextUnit × List Char)
  | [] => none
  | '"' :: rest => some ([], rest)
  | '\\' :: 'u' :: a :: b :: c :: d :: rest => do
    let unit ← ofRadixText? 16 [a, b, c, d]
    let (units, rest) ← readUnits rest
    return (.coded unit :: units, rest)
  | '\\' :: letter :: rest => do
    let c ← ofEscapeLetter? letter
    let (units, rest) ← readUnits rest
    return (.escaped c :: units, rest)
  | c :: rest => do
    if c.toNat < 0x20 ∨ c = '\\' then none
    let (units, rest) ← readUnits rest
    return (.plain c :: units, rest)

end LiveDetection.Json
