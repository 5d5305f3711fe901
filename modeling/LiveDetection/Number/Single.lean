import LiveDetection.Number.Rounding

/-!
# Single-precision values

A confidence is a 32-bit floating-point value kept as its bit pattern, so that every
pattern, payloads of undefined values included, passes through unchanged. Arithmetic
decodes the pattern, works on integers and rounds once.
-/

namespace LiveDetection

/-- A 32-bit floating-point value, as its bit pattern. -/
structure Single where
  bits : UInt32
deriving DecidableEq, Repr, Inhabited

namespace Single

/-- Whether the sign bit is set. -/
def negative (x : Single) : Bool := 0x80000000 ≤ x.bits.toNat

/-- The pattern without its sign. Magnitudes compare like these numbers. -/
def magnitudeBits (x : Single) : Nat := x.bits.toNat % 0x80000000

/-- Whether the value is a number, infinities excluded. -/
def isFinite (x : Single) : Bool := x.magnitudeBits < 0x7F800000

/-- Whether the value is undefined. -/
def isUndefined (x : Single) : Bool := 0x7F800000 < x.magnitudeBits

/-- The magnitude of a finite value. -/
def magnitude (x : Single) : Dyadic :=
  let field : Nat := x.magnitudeBits / 0x800000
  let fraction : Nat := x.magnitudeBits % 0x800000
  if field = 0 then ⟨fraction, -149⟩ else ⟨0x800000 + fraction, (field : Int) - 150⟩

/-- The value with a sign and a rounded magnitude; no magnitude stands for infinity. -/
def ofMagnitude (negative : Bool) (magnitude : Option Dyadic) : Single :=
  let unsigned :=
    match magnitude with
    | none => 0x7F800000
    | some d => (d.exponent + 149).toNat * 0x800000 + d.mantissa
  ⟨UInt32.ofNat (if negative then 0x80000000 + unsigned else unsigned)⟩

/-- The value nearest to a signed quotient. -/
def ofQuotient (negative : Bool) (num den : Nat) : Single :=
  ofMagnitude negative (BinaryFormat.single.round num den)

/-- The value nearest to a natural number. -/
def ofNat (n : Nat) : Single := ofQuotient false n 1

/-- The value nearest to an integer. -/
def ofInt (n : Int) : Single := ofQuotient (n < 0) n.natAbs 1

/-- Zero. -/
def zero : Single := ⟨0⟩

/-- One. -/
def one : Single := ofNat 1

/-- The position of a defined value on the number line, both zeros in one place. -/
def rank (x : Single) : Int :=
  if x.negative then -(x.magnitudeBits : Int) else x.magnitudeBits

/-- Numerical order. An undefined value is neither less nor greater than any value. -/
def lt (x y : Single) : Bool :=
  !x.isUndefined && !y.isUndefined && decide (x.rank < y.rank)

/-- The greater of two defined values. -/
def max (x y : Single) : Single := if x.lt y then y else x

/-- The lesser of two defined values. -/
def min (x y : Single) : Single := if y.lt x then y else x

/-- The quotient of two finite values, rounded once. The divisor is not zero. -/
def divide (x y : Single) : Single :=
  ofMagnitude (x.negative != y.negative) (BinaryFormat.single.divide x.magnitude y.magnitude)

end Single

end LiveDetection
