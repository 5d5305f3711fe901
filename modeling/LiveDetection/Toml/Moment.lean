import LiveDetection.Number.Digits

/-!
# TOML dates and times

A date, a time of day, or both with or without an offset. Spelling is free in the letter
between date and time, in the seconds, which may be missing, and in trailing zeros of a
fraction; in normal spelling all of these are fixed.
-/

namespace LiveDetection.Toml

/-- A number of `count` digits at the front, and what follows. -/
def takeNumber (count : Nat) (s : List Char) : Option (Nat × List Char) :=
  if (s.take count).length = count then
    ((s.take count).mapM digitOfChar?).map fun digits => (ofDigits digits, s.drop count)
  else none

/-- A set character at the front, and what follows. -/
def takeChar (c : Char) : List Char → Option (List Char)
  | d :: rest => if d = c then some rest else none
  | [] => none

/-- Whether a year has a leap day. -/
def isLeapYear (year : Nat) : Bool := year % 4 == 0 && (year % 100 != 0 || year % 400 == 0)

/-- The number of days of a month. -/
def daysOf (year month : Nat) : Nat :=
  match month with
  | 2 => if isLeapYear year then 29 else 28
  | 4 | 6 | 9 | 11 => 30
  | _ => 31

/-- A number with two digits at least. -/
def twoDigits (n : Nat) : List Char := digitText [n / 10, n % 10]

/-- A date at the front in normal spelling, and what follows. -/
def takeDate (s : List Char) : Option (List Char × List Char) := do
  let (year, rest) ← takeNumber 4 s
  let (month, rest) ← takeNumber 2 (← takeChar '-' rest)
  let (day, rest) ← takeNumber 2 (← takeChar '-' rest)
  if 1 ≤ month ∧ month ≤ 12 ∧ 1 ≤ day ∧ day ≤ daysOf year month then
    return (s.take 10, rest)
  else none

/-- A fraction of a second at the front in normal spelling, and what follows. A fraction
counts nine digits. -/
def takeFraction : List Char → Option (List Char × List Char)
  | '.' :: rest =>
    let digits := spanDigits rest
    let kept := ((digits.1.take 9).reverse.dropWhile (· == 0)).reverse
    if digits.1 = [] then none
    else some (if kept = [] then [] else '.' :: digitText kept, digits.2)
  | s => some ([], s)

/-- The seconds at the front in normal spelling, and what follows. -/
def takeSeconds : List Char → Option (List Char × List Char)
  | ':' :: rest => do
    let (second, rest) ← takeNumber 2 rest
    let (fraction, rest) ← takeFraction rest
    if second ≤ 60 then return (':' :: twoDigits second ++ fraction, rest) else none
  | s => some ([':', '0', '0'], s)

/-- A time of day at the front in normal spelling, and what follows. -/
def takeTime (s : List Char) : Option (List Char × List Char) := do
  let (hour, rest) ← takeNumber 2 s
  let (minute, rest) ← takeNumber 2 (← takeChar ':' rest)
  let (seconds, rest) ← takeSeconds rest
  if hour ≤ 23 ∧ minute ≤ 59 then
    return (twoDigits hour ++ ':' :: twoDigits minute ++ seconds, rest)
  else none

/-- An offset that makes up the rest, in normal spelling. -/
def offset? : List Char → Option (List Char)
  | [] => some []
  | ['Z'] => some ['Z']
  | ['z'] => some ['Z']
  | sign :: rest => do
    let (hour, rest) ← takeNumber 2 rest
    let (minute, rest) ← takeNumber 2 (← takeChar ':' rest)
    if (sign = '+' ∨ sign = '-') ∧ hour ≤ 23 ∧ minute ≤ 59 ∧ rest = [] then
      return sign :: twoDigits hour ++ ':' :: twoDigits minute
    else none

/-- Whether a character may stand between a date and a time. -/
def isDateEnd (c : Char) : Bool := c == 'T' || c == 't' || c == ' '

/-- The date, time or both that the text spells, in normal spelling. -/
def moment? (s : List Char) : Option (List Char) :=
  match takeDate s with
  | some (date, []) => some date
  | some (date, c :: rest) => do
    let (time, rest) ← takeTime rest
    let offset ← offset? rest
    if isDateEnd c then return date ++ 'T' :: time ++ offset else none
  | none => do
    let (time, rest) ← takeTime s
    if rest = [] then return time else none

end LiveDetection.Toml
