import LiveDetection.Number.Digits

/-!
# Digits in any radix

Digits beyond nine are letters, small or capital.
-/

namespace LiveDetection

/-- The value of a character as a digit of a large radix. -/
def digitValue? (c : Char) : Option Nat :=
  if '0' ≤ c ∧ c ≤ '9' then some (c.toNat - '0'.toNat)
  else if 'a' ≤ c ∧ c ≤ 'z' then some (c.toNat - 'a'.toNat + 10)
  else if 'A' ≤ c ∧ c ≤ 'Z' then some (c.toNat - 'A'.toNat + 10)
  else none

/-- The value of a character as a digit of a radix. -/
def digitIn? (radix : Nat) (c : Char) : Option Nat := (digitValue? c).filter (· < radix)

/-- The digit of a value, with small letters from ten on. -/
def digitFor (value : Nat) : Char :=
  if value < 10 then digitChar value else Char.ofNat ('a'.toNat + (value - 10))

/-- The number that the digits of a radix denote. -/
def ofRadix (radix : Nat) (digits : List Nat) : Nat := digits.foldl (fun n d => radix * n + d) 0

/-- The number that a text of digits of a radix denotes. -/
def ofRadixText? (radix : Nat) (text : List Char) : Option Nat :=
  (text.mapM (digitIn? radix)).map (ofRadix radix)

end LiveDetection
