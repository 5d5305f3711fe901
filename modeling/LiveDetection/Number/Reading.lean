import LiveDetection.Number.Digits
import LiveDetection.Number.Single

/-!
# Reading decimals

The nearest single-precision value to a decimal number written with an optional sign, an
optional point and an optional exponent.
-/

namespace LiveDetection

/-- The value nearest to a signed `digits * 10 ^ exponent`. Decimals far outside the range of
the format are decided by their number of digits alone. -/
def Single.ofDecimal (negative : Bool) (digits : List Nat) (exponent : Int) : Single :=
  let significant := digits.dropWhile (· == 0)
  let n := ofDigits significant
  let leading := exponent + significant.length
  if n = 0 ∨ leading < -50 then ofMagnitude negative (some ⟨0, -149⟩)
  else if leading > 50 then ofMagnitude negative none
  else ofQuotient negative (n * Nat.pow 10 exponent.toNat) (Nat.pow 10 (-exponent).toNat)

/-- An exponent that takes up all of the text; no text stands for zero. -/
def readExponent : List Char → Option Int
  | [] => some 0
  | c :: rest =>
    if c = 'e' ∨ c = 'E' then
      let signed := takeSign rest
      match spanDigits signed.2 with
      | (d :: digits, []) =>
        let n : Int := ofDigits (d :: digits)
        some (if signed.1 then -n else n)
      | _ => none
    else none

/-- The value nearest to the number that the text spells. -/
def readSingle? (text : String) : Option Single :=
  let signed := takeSign text.toList
  let whole := spanDigits signed.2
  let fraction :=
    match whole.2 with
    | '.' :: rest => spanDigits rest
    | rest => ([], rest)
  if whole.1 ++ fraction.1 = [] then none
  else
    (readExponent fraction.2).map fun exponent =>
      Single.ofDecimal signed.1 (whole.1 ++ fraction.1) (exponent - fraction.1.length)

end LiveDetection
