import LiveDetection.Json.Value
import LiveDetection.Number.Digits

/-!
# JSON numbers

How a number is written and read. The digits before the point do not start with a zero
unless it is the only one, and a point is followed by at least one digit.
-/

namespace LiveDetection.Json

/-- How the power of ten is written, always with its sign. -/
def writeExponent : Option Exponent → List Char
  | none => []
  | some e => 'e' :: (if e.negative then '-' else '+') :: digitText e.digits

/-- How a number is written. -/
def writeNumber (n : Number) : List Char :=
  (if n.negative then ['-'] else []) ++ digitText n.whole ++
    (if n.fraction = [] then [] else '.' :: digitText n.fraction) ++ writeExponent n.exponent

/-- The digits before the point, and what follows. -/
def readWhole (s : List Char) : Option (List Nat × List Char) :=
  match s with
  | '0' :: rest => if (spanDigits rest).1 = [] then some ([0], rest) else none
  | s => if (spanDigits s).1 = [] then none else some (spanDigits s)

/-- The digits after the point, if there is a point, and what follows. -/
def readFraction (s : List Char) : Option (List Nat × List Char) :=
  match s with
  | '.' :: rest => if (spanDigits rest).1 = [] then none else some (spanDigits rest)
  | s => some ([], s)

/-- The power of ten, if there is one, and what follows. -/
def readExponent (s : List Char) : Option (Option Exponent × List Char) :=
  match s with
  | c :: rest =>
    if c = 'e' ∨ c = 'E' then
      let signed := takeSign rest
      let digits := spanDigits signed.2
      if digits.1 = [] then none else some (some ⟨signed.1, digits.1⟩, digits.2)
    else some (none, c :: rest)
  | [] => some (none, [])

/-- The sign of a number, and what follows. -/
def readSign : List Char → Bool × List Char
  | '-' :: rest => (true, rest)
  | rest => (false, rest)

/-- A number at the front, and what follows. -/
def readNumber (s : List Char) : Option (Number × List Char) := do
  let signed := readSign s
  let whole ← readWhole signed.2
  let fraction ← readFraction whole.2
  let exponent ← readExponent fraction.2
  return (⟨signed.1, whole.1, fraction.1, exponent.1⟩, exponent.2)

namespace Number

/-- The number of an integer. -/
def ofInt (n : Int) : Number := ⟨n < 0, digitsOf n.natAbs, [], none⟩

/-- The integer of a number without point and power of ten. A zero with a sign is none. -/
def toInt? (n : Number) : Option Int :=
  if n.fraction = [] ∧ n.exponent = none then
    match n.negative, ofDigits n.whole with
    | false, m => some m
    | true, 0 => none
    | true, m => some (-(m : Int))
  else none

end Number

end LiveDetection.Json
