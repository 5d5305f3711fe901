/-!
# Rounding to a binary format

A binary floating-point format has a number of significant digits, a least exponent and an
exponent from which values count as infinite. Rounding a quotient of naturals to the
format is exact integer arithmetic: the nearest value wins, and of two nearest values the
one with the even significand.
-/

namespace LiveDetection

/-- The quotient rounded to the nearest integer; a half goes to the even neighbour. -/
def roundQuotient (num den : Nat) : Nat :=
  let quotient := num / den
  match compare (2 * (num % den)) den with
  | .lt => quotient
  | .gt => quotient + 1
  | .eq => quotient + quotient % 2

/-- A finite magnitude `mantissa * 2 ^ exponent`. -/
structure Dyadic where
  mantissa : Nat
  exponent : Int
deriving DecidableEq, Repr

/-- The quotient `num / den` divided by `2 ^ exponent`, again as a quotient. -/
def scaledQuotient (num den : Nat) (exponent : Int) : Nat × Nat :=
  (num * Nat.pow 2 (-exponent).toNat, den * Nat.pow 2 exponent.toNat)

/-- The exponent of the leading binary digit of a positive quotient. -/
def leadingExponent (num den : Nat) : Int :=
  let guess : Int := (num.log2 : Int) - (den.log2 : Int)
  let scaled := scaledQuotient num den guess
  if scaled.2 ≤ scaled.1 then guess else guess - 1

/-- A binary floating-point format. -/
structure BinaryFormat where
  /-- How many binary digits a significand has. -/
  precision : Nat
  /-- The exponent of the least positive value. -/
  least : Int
  /-- Magnitudes from `2 ^ limit` on are infinite. -/
  limit : Int

namespace BinaryFormat

/-- The 32-bit format. -/
def single : BinaryFormat := ⟨24, -149, 128⟩

/-- The 64-bit format. -/
def double : BinaryFormat := ⟨53, -1074, 1024⟩

/-- The value of the format nearest to `num / den`, or `none` when it is infinite. -/
def round (f : BinaryFormat) (num den : Nat) : Option Dyadic :=
  if num = 0 then
    some ⟨0, f.least⟩
  else
    let exponent := max f.least (leadingExponent num den - (f.precision - 1 : Nat))
    let scaled := scaledQuotient num den exponent
    let mantissa := roundQuotient scaled.1 scaled.2
    if (mantissa.log2 : Int) + exponent ≥ f.limit ∧ mantissa ≠ 0 then none
    else some ⟨mantissa, exponent⟩

/-- The value of the format nearest to a finite magnitude. -/
def roundDyadic (f : BinaryFormat) (d : Dyadic) : Option Dyadic :=
  f.round (d.mantissa * Nat.pow 2 d.exponent.toNat) (Nat.pow 2 (-d.exponent).toNat)

/-- The value of the format nearest to the product of two magnitudes. -/
def multiply (f : BinaryFormat) (a b : Dyadic) : Option Dyadic :=
  f.roundDyadic ⟨a.mantissa * b.mantissa, a.exponent + b.exponent⟩

/-- The value of the format nearest to the quotient of two magnitudes. The divisor is not zero. -/
def divide (f : BinaryFormat) (a b : Dyadic) : Option Dyadic :=
  let exponent := a.exponent - b.exponent
  f.round (a.mantissa * Nat.pow 2 exponent.toNat) (b.mantissa * Nat.pow 2 (-exponent).toNat)

end BinaryFormat

end LiveDetection
