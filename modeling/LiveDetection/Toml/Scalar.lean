import LiveDetection.Number.Radix
import LiveDetection.Toml.Moment
import LiveDetection.Toml.Value

/-!
# TOML scalars

Numbers, truth values, dates and times stand without quotes. Digits may be grouped by
single underscores, a decimal integer has no leading zeros, and only decimal numbers have
signs.
-/

namespace LiveDetection.Toml

/-- The digits without their groups. An underscore needs a digit on either side. -/
def ungroup : List Char → Option (List Char)
  | [] => none
  | [c] => if c = '_' then none else some [c]
  | c :: '_' :: d :: rest =>
    if c = '_' ∨ d = '_' then none else (ungroup (d :: rest)).map (c :: ·)
  | c :: rest => if c = '_' then none else (ungroup rest).map (c :: ·)

/-- Grouped digits of a radix. -/
def groupedDigits? (radix : Nat) (s : List Char) : Option (List Nat) :=
  (ungroup s).bind (·.mapM (digitIn? radix))

/-- Grouped decimal digits without leading zeros. -/
def wholeDigits? (s : List Char) : Option (List Nat) :=
  (groupedDigits? 10 s).filter fun digits => digits.length == 1 || digits.head? != some 0

/-- The integer that the text spells. -/
def integer? : List Char → Option Int
  | '0' :: 'x' :: rest => (groupedDigits? 16 rest).map fun digits => (ofRadix 16 digits : Int)
  | '0' :: 'o' :: rest => (groupedDigits? 8 rest).map fun digits => (ofRadix 8 digits : Int)
  | '0' :: 'b' :: rest => (groupedDigits? 2 rest).map fun digits => (ofRadix 2 digits : Int)
  | s =>
    let signed := takeSign s
    (wholeDigits? signed.2).map fun digits =>
      if signed.1 then -(ofDigits digits : Int) else ofDigits digits

/-- Whether a character starts a power of ten. -/
def isExponentMark (c : Char) : Bool := c == 'e' || c == 'E'

/-- The power of ten that makes up the rest of a number. -/
def exponent? : List Char → Option Int
  | [] => some 0
  | _ :: rest =>
    let signed := takeSign rest
    (groupedDigits? 10 signed.2).map fun digits =>
      if signed.1 then -(ofDigits digits : Int) else ofDigits digits

/-- The digits after the point of a number, if there is a point. -/
def fraction? : List Char → Option (List Nat)
  | [] => some []
  | _ :: rest => groupedDigits? 10 rest

/-- The number with a point or a power of ten that the text spells. -/
def real? (s : List Char) : Option Real :=
  let signed := takeSign s
  match signed.2 with
  | ['i', 'n', 'f'] => some (.infinite signed.1)
  | ['n', 'a', 'n'] => some .undefined
  | unsigned => do
    let mantissa := unsigned.takeWhile fun c => !isExponentMark c
    let whole ← wholeDigits? (mantissa.takeWhile (· ≠ '.'))
    let fraction ← fraction? (mantissa.dropWhile (· ≠ '.'))
    let exponent ← exponent? (unsigned.dropWhile fun c => !isExponentMark c)
    return .decimal signed.1 (whole ++ fraction) (exponent - fraction.length)

/-- The value of a scalar. -/
def scalar? (s : List Char) : Option Value :=
  if s = ['t', 'r', 'u', 'e'] then some (.boolean true)
  else if s = ['f', 'a', 'l', 's', 'e'] then some (.boolean false)
  else
    ((integer? s).map Value.integer).or
      (((real? s).map Value.real).or
        ((moment? s).map fun spelling => Value.moment (String.ofList spelling)))

/-- Whether a character may stand in a scalar. -/
def isScalarChar (c : Char) : Bool :=
  c.isAlphanum || c == '+' || c == '-' || c == '_' || c == '.' || c == ':'

/-- Whether the text is a date behind which, after one blank, a time follows. -/
def continuesDate (s : List Char) : List Char → Bool
  | ' ' :: c :: _ => ((takeDate s).any fun d => d.2.isEmpty) && c.isDigit
  | _ => false

/-- A scalar at the front, and what follows it. -/
def readScalar (s : List Char) : Option (Value × List Char) :=
  let first := s.takeWhile isScalarChar
  let rest := s.dropWhile isScalarChar
  if continuesDate first rest then
    (scalar? (first ++ ' ' :: (rest.drop 1).takeWhile isScalarChar)).map
      (·, (rest.drop 1).dropWhile isScalarChar)
  else (scalar? first).map (·, rest)

end LiveDetection.Toml
