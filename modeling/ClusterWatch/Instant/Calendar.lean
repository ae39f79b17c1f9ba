import ClusterWatch.Decimal
import ClusterWatch.Instant

/-!
# Calendar — the date and time of an instant

Days are counted in the Gregorian calendar, extended to all years; year 0 is the one before
year 1.  The calendar repeats every 400 years, an *era* of 146097 days, and its years are taken to
begin in March, so that the leap day is the last day of a year.

An instant is written as `YYYY-MM-DDTHH:MM:SS.fZ`, the fraction with as many groups of three digits
as it needs.
-/

namespace ClusterWatch

/-- A date of the Gregorian calendar. -/
structure Date where
  year : Int
  month : Nat
  day : Nat
  deriving DecidableEq, Repr

namespace Date

/-- The date a number of days after the first of March of the year 0. -/
def ofMarchDays (days : Int) : Date :=
  let era := days / 146097
  let dayOfEra := (days % 146097).toNat
  let yearOfEra :=
    (dayOfEra - dayOfEra / 1460 + dayOfEra / 36524 - dayOfEra / 146096) / 365
  let dayOfYear := dayOfEra - (365 * yearOfEra + yearOfEra / 4 - yearOfEra / 100)
  let month := (5 * dayOfYear + 2) / 153
  let year := era * 400 + yearOfEra
  let day := dayOfYear - (153 * month + 2) / 5 + 1
  if month < 10 then ⟨year, month + 3, day⟩ else ⟨year + 1, month - 9, day⟩

/-- The date a number of days after the first of January 1970. -/
def ofDays (days : Int) : Date := ofMarchDays (days + 719468)

/-- A year: four digits, or a sign and at least four digits outside the years 0 to 9999. -/
def yearText (year : Int) : List Char :=
  if year < 0 then '-' :: Decimal.padded 4 year.natAbs
  else if year < 10000 then Decimal.padded 4 year.natAbs
  else '+' :: Decimal.padded 4 year.natAbs

/-- A date as year, month and day. -/
def text (d : Date) : List Char :=
  yearText d.year ++ ['-'] ++ Decimal.padded 2 d.month ++ ['-'] ++ Decimal.padded 2 d.day

end Date

namespace Instant

/-- The fraction of a second: nothing, or a point and the fewest groups of three digits. -/
def fractionText (nanos : Nat) : List Char :=
  if nanos = 0 then []
  else if nanos % 1000000 = 0 then '.' :: Decimal.padded 3 (nanos / 1000000)
  else if nanos % 1000 = 0 then '.' :: Decimal.padded 6 (nanos / 1000)
  else '.' :: Decimal.padded 9 nanos

/-- An instant as date and time in Universal Time; a leap second is the second 60. -/
def text (t : Instant) : List Char :=
  let second := t.secondOfDay
  (Date.ofDays (t.seconds / 86400)).text ++ ['T'] ++ Decimal.padded 2 (second / 3600) ++ [':'] ++
    Decimal.padded 2 (second / 60 % 60) ++ [':'] ++
    Decimal.padded 2 (second % 60 + t.nanos / 1000000000) ++
    fractionText (t.nanos % 1000000000) ++ ['Z']

end Instant

end ClusterWatch
