/-!
# Instant — points in time

An instant is a number of seconds since the start of 1970 in Universal Time and a number of
nanoseconds on top of them.  A leap second is the second before it with a billion nanoseconds or
more.

Days have 86400 seconds each, so leap seconds between two instants do not count, but those that the
instants themselves stand in do: a time of day behind a leap second is a second further from it than
the clock says (`leapSeconds`).
-/

namespace ClusterWatch

/-- Seconds since the start of 1970, and nanoseconds on top of them. -/
structure Instant where
  seconds : Int
  nanos : Nat
  deriving DecidableEq, Repr

namespace Instant

/-- The instant a number of milliseconds after the start of 1970. -/
def ofMillis (n : Nat) : Instant := ⟨(n / 1000 : Nat), n % 1000 * 1000000⟩

/-- Nanoseconds since the start of 1970. -/
def toNanos (t : Instant) : Int := t.seconds * 1000000000 + t.nanos

/-- The seconds of its day that have passed at an instant. -/
def secondOfDay (t : Instant) : Nat := (t.seconds % 86400).toNat

/-- Whether an instant stands in a leap second. -/
def isLeap (t : Instant) : Bool := 1000000000 ≤ t.nanos

/-- What leap seconds add to the seconds between two instants: if the one whose time of day comes
first stands in a leap second, the other is a second further from it. -/
def leapSeconds (earlier later : Instant) : Int :=
  if earlier.secondOfDay < later.secondOfDay ∧ earlier.isLeap then 1
  else if later.secondOfDay < earlier.secondOfDay ∧ later.isLeap then -1
  else 0

/-- Nanoseconds from one instant to another. -/
def nanosUntil (earlier later : Instant) : Int :=
  later.toNanos - earlier.toNanos + leapSeconds earlier later * 1000000000

/-- Whole seconds from one instant to a later one; none when it is not later. -/
def secondsUntil (earlier later : Instant) : Nat :=
  (nanosUntil earlier later).toNat / 1000000000

end Instant

end ClusterWatch
