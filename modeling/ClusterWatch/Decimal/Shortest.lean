import ClusterWatch.Binary64
import ClusterWatch.Decimal

/-!
# Shortest — the fewest digits that read back

A binary64 number is written with as few significant digits as still round to it: of the
decimals with one digit, two digits, … seventeen digits, the first grid on which one of the two
neighbours of the number rounds to the number.  If both do, the nearer is taken, and of two
equally near the one with the even last digit.
-/

namespace ClusterWatch.Decimal
open Binary64

/-- Ten to an integer power. -/
def pow10 : Int → Rat
  | .ofNat n => (Nat.pow 10 n : Nat)
  | .negSucc n => 1 / (Nat.pow 10 (n + 1) : Nat)

/-- The exponent `k` with `10 ^ k ≤ x < 10 ^ (k + 1)`, for `0 < x`. -/
def exponent10 (x : Rat) : Int :=
  if 1 ≤ x then ((numeral x.floor.toNat).length : Int) - 1
  else -((numeral ((1 / x).ceil - 1).toNat).length : Int)

/-- A decimal: a natural number of units of a power of ten. -/
structure Scaled where
  units : Nat
  exponent : Int
  deriving DecidableEq, Repr

/-- The number a decimal denotes. -/
def Scaled.value (d : Scaled) : Rat := d.units * pow10 d.exponent

/-- The nearer to `x` of the decimals `low ≤ x` and `high > x`, and `low` or `high` by the even
number of units when they are equally near. -/
def nearer (x : Rat) (low high : Scaled) : Scaled :=
  let down := x - low.value
  let up := high.value - x
  if down < up then low
  else if up < down then high
  else if low.units % 2 = 0 then low
  else high

/-- Of the two neighbours of `x` among the decimals of `digits` digits, the one that rounds to
`x` and is nearest to it. -/
def neighbour? (x : Rat) (digits : Nat) : Option Scaled :=
  let e := exponent10 x - digits + 1
  let low : Scaled := ⟨(x / pow10 e).floor.toNat, e⟩
  let high : Scaled := ⟨low.units + 1, e⟩
  if nearest low.value = x then
    if nearest high.value = x then some (nearer x low high) else some low
  else if nearest high.value = x then some high
  else none

/-- The shortest decimal that rounds to `x`, for a binary64 number `0 < x`. -/
def shortest (x : Rat) : Scaled :=
  ((List.range 17).findSome? fun n => neighbour? x (n + 1)).getD ⟨x.floor.toNat, 0⟩

/-- The significant digits of a decimal and the exponent of the first of them. -/
def Scaled.digits (d : Scaled) : List Char × Int :=
  let ds := numeral d.units
  ((ds.reverse.dropWhile (· = '0')).reverse, d.exponent + ds.length - 1)

/-- The text of a positive binary64 number: written out, with at least one decimal, when its first
digit stands for 10 ^ -5 to 10 ^ 15, and otherwise as digits with a signed power of ten. -/
def positiveText (x : Rat) : List Char :=
  let (ds, first) := (shortest x).digits
  let whole := (first + 1).toNat
  if first < -5 || 15 < first then
    let point := if ds.length ≤ 1 then ds else ds.take 1 ++ ['.'] ++ ds.drop 1
    point ++ ['e', if first < 0 then '-' else '+'] ++ numeral first.natAbs
  else if first < 0 then
    ['0', '.'] ++ List.replicate (first.natAbs - 1) '0' ++ ds
  else if ds.length ≤ whole then
    ds ++ List.replicate (whole - ds.length) '0' ++ ['.', '0']
  else ds.take whole ++ ['.'] ++ ds.drop whole

/-- The text of a binary64 number, given by its sign and its size. -/
def floatText (negative : Bool) (size : Rat) : List Char :=
  (if negative then ['-'] else []) ++ (if size = 0 then ['0', '.', '0'] else positiveText size)

end ClusterWatch.Decimal
