import LiveDetection.Number.Single

/-!
# Fewest digits that read back

A finite single-precision value is the rounding of every real in an interval around it.
Among the decimals in that interval the selection prefers the fewest digits, then the
decimal nearest to the value, then the even one. All comparisons are exact.
-/

namespace LiveDetection

/-- The decimal `digits * 10 ^ exponent`. -/
structure Decimal where
  digits : Nat
  exponent : Int
deriving DecidableEq, Repr

/-- The order of `a * 10 ^ i` and `m * 2 ^ j`. -/
def compareScaled (a : Nat) (i : Int) (m : Nat) (j : Int) : Ordering :=
  compare (a * Nat.pow 10 i.toNat * Nat.pow 2 (-j).toNat)
    (m * Nat.pow 2 j.toNat * Nat.pow 10 (-i).toNat)

namespace Single

/-- Whether the value below is nearer than the value above: so just above a power of two. -/
def narrowBelow (x : Single) : Bool :=
  x.magnitudeBits % 0x800000 == 0 && 0x1000000 ≤ x.magnitudeBits

/-- Whether a decimal rounds to the magnitude of a finite value. -/
def readsBack (x : Single) (d : Decimal) : Bool :=
  let m := x.magnitude.mantissa
  let q := x.magnitude.exponent
  let low := if x.narrowBelow then 4 * m - 1 else 4 * m - 2
  let ends := m % 2 == 0
  let below := compareScaled d.digits d.exponent low (q - 2)
  let above := compareScaled d.digits d.exponent (4 * m + 2) (q - 2)
  (below == .gt || (ends && below == .eq)) && (above == .lt || (ends && above == .eq))

/-- The least `k` in a range with `m * 2 ^ q < 10 ^ k`. -/
def decimalScale (m : Nat) (q : Int) : Int :=
  let steps : Option Nat :=
    (List.range 90).find? fun i => compareScaled 1 ((i : Int) - 46) m q == .gt
  ((steps.getD 90 : Nat) : Int) - 46

/-- The quotient of `m * 2 ^ q` and `10 ^ i`, rounded down. -/
def wholeTens (m : Nat) (q i : Int) : Nat :=
  (m * Nat.pow 2 q.toNat * Nat.pow 10 (-i).toNat) / (Nat.pow 2 (-q).toNat * Nat.pow 10 i.toNat)

/-- The decimal with digits in steps of `10 ^ exponent` that is nearest to the value, if one
of its two neighbours there reads back. -/
def nearestOnGrid (x : Single) (exponent : Int) : Option Decimal :=
  let m := x.magnitude.mantissa
  let q := x.magnitude.exponent
  let down := wholeTens m q exponent
  let candidates := [down, down + 1].filter fun n => x.readsBack ⟨n, exponent⟩
  match candidates with
  | [] => none
  | [n] => some ⟨n, exponent⟩
  | n :: _ =>
    -- Twice the value lies on one side of the sum of its neighbours, or on it.
    match compareScaled (2 * n + 1) exponent (2 * m) q with
    | .gt => some ⟨n, exponent⟩
    | .lt => some ⟨n + 1, exponent⟩
    | .eq => some ⟨n + n % 2, exponent⟩

/-- A decimal without trailing zeros in its digits. At most `fuel` zeros are dropped. -/
def stripZeros : Nat → Decimal → Decimal
  | 0, d => d
  | fuel + 1, d =>
    if d.digits ≠ 0 ∧ d.digits % 10 = 0 then stripZeros fuel ⟨d.digits / 10, d.exponent + 1⟩ else d

/-- The magnitude of a finite value in decimal, with the fewest digits that read back. Nine
digits always suffice; the exact value stands at the end so that the function is total. -/
def shortest (x : Single) : Decimal :=
  let m := x.magnitude.mantissa
  let q := x.magnitude.exponent
  if m = 0 then ⟨0, 0⟩
  else
    let k := decimalScale m q
    let found := (List.range 9).findSome? fun n => x.nearestOnGrid (k - (n + 1 : Nat))
    match found with
    | some d => stripZeros 9 d
    | none => ⟨m * Nat.pow 2 q.toNat * Nat.pow 5 (-q).toNat, -((-q).toNat : Int)⟩

end Single

end LiveDetection
