import LiveDetection.Number.Digits
import LiveDetection.Number.Single

/-!
# A fixed number of places

A finite value with a set number of places after the point. The exact binary value is
rounded, and a half goes to the even neighbour.
-/

namespace LiveDetection

/-- At least `width` digits, with zeros in front. -/
def padDigits (width : Nat) (digits : List Nat) : List Nat :=
  List.replicate (width - digits.length) 0 ++ digits

/-- The text of a finite value with `places` digits after the point. -/
def Single.fixedText (x : Single) (places : Nat) : String :=
  let m := x.magnitude.mantissa
  let q := x.magnitude.exponent
  let scaled := roundQuotient (m * Nat.pow 2 q.toNat * Nat.pow 10 places) (Nat.pow 2 (-q).toNat)
  let digits := padDigits (places + 1) (digitsOf scaled)
  let whole := digits.take (digits.length - places)
  let fraction := digits.drop (digits.length - places)
  let sign := if x.negative then ['-'] else []
  let point := if places = 0 then [] else ['.']
  String.ofList (sign ++ digitText whole ++ point ++ digitText fraction)

end LiveDetection
