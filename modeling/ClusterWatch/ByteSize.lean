import ClusterWatch.Binary64
import ClusterWatch.Decimal

/-!
# ByteSize — byte counts with a decimal unit

A size is shown in the smallest of the units B, KB, MB, GB, TB, PB whose thousandfold exceeds
it, and in PB past that (`Unit.of`).  Bytes are shown whole; every other unit is shown with
one decimal.  Both round half away from zero.

A size is a binary64 number, and so is every intermediate result: the quotient by the unit's
scale, its tenfold, and the tenth of the rounded tenfold are each rounded to the format.
-/

namespace ClusterWatch.ByteSize
open Binary64

/-- The units, in ascending order. -/
inductive Unit
  | byte | kilo | mega | giga | tera | peta
  deriving DecidableEq, Repr

namespace Unit

/-- All units, the smallest first. -/
def all : List Unit := [byte, kilo, mega, giga, tera, peta]

/-- How often the factor 1000 stands in the unit. -/
def rank : Unit → Nat
  | byte => 0 | kilo => 1 | mega => 2 | giga => 3 | tera => 4 | peta => 5

/-- Bytes in the unit. -/
def scale (u : Unit) : Nat := Nat.pow 1000 u.rank

/-- The sign of the unit. -/
def symbol : Unit → String
  | byte => "B" | kilo => "KB" | mega => "MB" | giga => "GB" | tera => "TB" | peta => "PB"

/-- The unit a size is shown in. -/
def of (size : Rat) : Unit :=
  (all.find? fun u => size < u.scale * 1000).getD peta

end Unit

/-- The whole bytes shown for a size. -/
def wholeBytes (size : Rat) : Int := roundAway size

/-- The tenths of the unit that a size comes to. -/
def tenths (u : Unit) (size : Rat) : Int :=
  roundAway (nearest (nearest (size / u.scale) * 10))

/-- The tenths that are printed: those of the binary64 number nearest to the rounded size. -/
def shownTenths (u : Unit) (size : Rat) : Int :=
  roundEven (nearest (tenths u size / 10) * 10)

/-- A number of tenths, with one decimal. -/
def oneDecimal (t : Int) : String :=
  (if t < 0 then "-" else "") ++ Decimal.text (t.natAbs / 10) ++ "." ++ Decimal.text (t.natAbs % 10)

/-- The text of a finite size. -/
def text (size : Rat) : String :=
  match Unit.of size with
  | .byte => Decimal.signed (wholeBytes size) ++ " B"
  | u => oneDecimal (shownTenths u size) ++ " " ++ u.symbol

/-- The text of the size that 64 bits denote: empty when there is no size, or no finite one. -/
def textOfBits (bits : Option UInt64) : String :=
  match bits.bind ofBits with
  | none => ""
  | some size => text size

/-- The text of a count of bytes, taken as the nearest binary64 number. -/
def textOfCount (count : UInt64) : String := text (nearest count.toNat)

end ClusterWatch.ByteSize
