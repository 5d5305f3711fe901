import LiveDetection.Json.Value
import LiveDetection.Number.Digits
import LiveDetection.Number.Shortest

/-!
# Single-precision values in JSON

A single-precision value is written with the fewest digits that read back. It is read in
two roundings: the digits, collected in a 64-bit word, are scaled by one power of ten at
double precision, and the result is rounded again. An integer that fits a word is rounded
only once. Values that are not finite have no number and are written as `null`.
-/

namespace LiveDetection.Json

/-- The greatest word in which digits are collected. -/
def wordLimit : Nat := UInt64.size - 1

/-- The least exponent that is too large for an exponent of digits. -/
def exponentLimit : Nat := 0x80000000

/-- Collect digits in a word for as long as they fit. The rest does not fit any more. -/
def collectDigits (word : Nat) : List Nat → Nat × List Nat
  | [] => (word, [])
  | d :: rest =>
    if 10 * word + d ≤ wordLimit then collectDigits (10 * word + d) rest else (word, d :: rest)

namespace Number

/-- The digits of a number as far as they fit a word, and the power of ten of the last one.
Digits before the point that do not fit only count. Digits after the point are collected as
long as they fit, and are dropped from there on. -/
def significand (n : Number) : Nat × Int :=
  let whole := collectDigits 0 n.whole
  let fraction := collectDigits whole.1 n.fraction
  (fraction.1, (whole.2.length : Int) - ((n.fraction.length - fraction.2.length : Nat) : Int))

/-- A power of ten at double precision. It has to be within range. -/
def powerOfTen (n : Nat) : Dyadic :=
  (BinaryFormat.double.round (Nat.pow 10 n) 1).getD ⟨0, BinaryFormat.double.least⟩

/-- The greatest power of ten at double precision. -/
def greatestPower : Nat := 308

/-- A double-precision magnitude scaled by a power of ten; `none` when it is too large. Small
powers beyond the greatest one are applied in steps. -/
def scale (f : Dyadic) (power : Int) : Option Dyadic :=
  if power.natAbs ≤ greatestPower then
    if 0 ≤ power then BinaryFormat.double.multiply f (powerOfTen power.natAbs)
    else BinaryFormat.double.divide f (powerOfTen power.natAbs)
  else if f.mantissa = 0 then some f
  else if 0 ≤ power then none
  else
    (BinaryFormat.double.divide f (powerOfTen greatestPower)).bind fun g =>
      scale g (power + greatestPower)
termination_by power.natAbs
decreasing_by simp [greatestPower] at *; omega

/-- The double-precision magnitude of a number; `none` when it is too large. A power of ten
whose own digits are too many is decided by its sign. -/
def double? (n : Number) : Option Dyadic :=
  let collected := n.significand
  let word := BinaryFormat.double.round collected.1 1
  match n.exponent with
  | none => word.bind fun f => scale f collected.2
  | some e =>
    if ofDigits e.digits < exponentLimit then
      let given : Int := ofDigits e.digits
      word.bind fun f => scale f (collected.2 + (if e.negative then -given else given))
    else if collected.1 ≠ 0 ∧ ¬ e.negative then none
    else some ⟨0, BinaryFormat.double.least⟩

/-- Whether a number is an integer of a 64-bit word, signed or unsigned. -/
def isWord (n : Number) : Bool :=
  let m := ofDigits n.whole
  n.fraction == [] && n.exponent.isNone &&
    (if n.negative then m ≠ 0 && m ≤ 0x8000000000000000 else m ≤ wordLimit)

/-- The single-precision value of a number; `none` when the number is too large. -/
def toSingle? (n : Number) : Option Single :=
  if n.isWord then some (.ofQuotient n.negative (ofDigits n.whole) 1)
  else
    n.double?.map fun f =>
      .ofMagnitude n.negative (BinaryFormat.single.roundDyadic f)

/-- The digits with zeros in front of or behind the point. -/
def positional (negative : Bool) (digits : List Nat) (point : Int) : Number :=
  if point ≤ 0 then
    ⟨negative, [0], List.replicate (-point).toNat 0 ++ digits, none⟩
  else if point.toNat < digits.length then
    ⟨negative, digits.take point.toNat, digits.drop point.toNat, none⟩
  else
    ⟨negative, digits ++ List.replicate (point.toNat - digits.length) 0, [0], none⟩

/-- The digits with a point after the first one and a power of ten. -/
def scientific (negative : Bool) (digits : List Nat) (power : Int) : Number :=
  ⟨negative, digits.take 1, digits.drop 1, some ⟨power < 0, digitsOf power.natAbs⟩⟩

/-- The number of a finite value. With the point right before the first digit and a power of
ten `k`, the positional form is used for `k` from -5 to 13. -/
def ofSingle (x : Single) : Number :=
  let d := x.shortest
  let digits := digitsOf d.digits
  let point := d.exponent + digits.length
  if d.digits = 0 then ⟨x.negative, [0], [0], none⟩
  else if -6 < point ∧ point ≤ 13 then positional x.negative digits point
  else scientific x.negative digits (point - 1)

end Number

/-- How a single-precision value stands in a tree. -/
def singleValue (x : Single) : Value :=
  if x.isFinite then .number (.ofSingle x) else .null

/-- The single-precision value of a number in a tree. -/
def single? : Value → Option Single
  | .number n => n.toSingle?
  | _ => none

end LiveDetection.Json
