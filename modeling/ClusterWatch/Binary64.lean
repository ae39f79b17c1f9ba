/-!
# Binary64 — rounding to double precision, in exact rational arithmetic

A finite binary64 number is the rational it denotes, so an operation on such numbers is the
exact operation followed by `nearest`, which rounds to the nearest number of 53 significant
bits (fewer below 2 ^ -1022), ties to the even significand.  `nearest` has no largest value; a
rational is in the range of the format when it is below that of infinity (`inRange`).

`ofBits` reads the number that 64 bits denote: sign, eleven bits of exponent, 52 of fraction.
-/

namespace ClusterWatch.Binary64

/-- Two to an integer power. -/
def pow2 : Int → Rat
  | .ofNat n => (Nat.pow 2 n : Nat)
  | .negSucc n => 1 / (Nat.pow 2 (n + 1) : Nat)

/-- The magnitude of a rational. -/
def magnitude (x : Rat) : Rat := if x < 0 then -x else x

/-- The nearest integer, ties to the even one. -/
def roundEven (x : Rat) : Int :=
  let below := x.floor
  let part := x - below
  if part < 1 / 2 then below
  else if 1 / 2 < part then below + 1
  else if below % 2 = 0 then below
  else below + 1

/-- The nearest integer, ties away from zero. -/
def roundAway (x : Rat) : Int :=
  if x < 0 then -(1 / 2 - x).floor else (x + 1 / 2).floor

/-- The exponent `k` with `2 ^ k ≤ |x| < 2 ^ (k + 1)`, for `x ≠ 0`. -/
def exponent (x : Rat) : Int :=
  let k : Int := (Nat.log2 x.num.natAbs : Int) - (Nat.log2 x.den : Int)
  if pow2 k ≤ magnitude x then k else k - 1

/-- The exponent of the last place of the format's numbers at the size of `x`. -/
def lastPlace (x : Rat) : Int := max (exponent x - 52) (-1074)

/-- The nearest number with 53 significant bits and no place below 2 ^ -1074, ties to the
even significand. -/
def nearest (x : Rat) : Rat :=
  roundEven (x / pow2 (lastPlace x)) * pow2 (lastPlace x)

/-- Whether `x` is below the range of infinity. -/
def inRange (x : Rat) : Bool := magnitude x < pow2 1024

/-- The number that 64 bits denote; none for an infinity or a NaN. -/
def ofBits (bits : UInt64) : Option Rat :=
  let field := (bits.toNat / Nat.pow 2 52) % 2048
  let fraction := bits.toNat % Nat.pow 2 52
  let size : Rat :=
    if field = 0 then fraction * pow2 (-1074)
    else (Nat.pow 2 52 + fraction : Nat) * pow2 ((field : Int) - 1075)
  if field = 2047 then none
  else if bits.toNat < Nat.pow 2 63 then some size
  else some (-size)

end ClusterWatch.Binary64
