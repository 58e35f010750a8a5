import GoalProgress.Date
import GoalProgress.Decimal

/-!
# Instants

An instant is a point of time in UTC, to the nanosecond. The sixtieth second of any minute is
admitted, for leap seconds, and stays apart from the first second of the next minute.

## Main definitions

* `Instant.print`: the instant to the whole second, as shown on goals.
* `Instant.printExact`: the instant with its fraction of a second.
-/
namespace GoalProgress

/-- A point of time in UTC, to the nanosecond. A leap second can only be the sixtieth of its minute:
those that a clock may place at another second, and that no text stands for, are left out. -/
structure Instant where
  date : Date
  /-- The minute of the day. -/
  minute : Fin 1440
  /-- The second of the minute; sixty in a leap second. -/
  second : Fin 61
  nano : Fin 1000000000
deriving DecidableEq

namespace Instant

/-- A year has four digits; outside 0 to 9999 it has a sign and at least four digits. -/
def printYear (year : Int) : Bytes :=
  if 0 ≤ year ∧ year ≤ 9999 then Decimal.fixed 4 year.toNat
  else (if year < 0 then Byte.minus else Byte.plus) :: Decimal.atLeast 4 year.natAbs

/-- Date and time of day, up to the whole second. -/
def printSeconds (t : Instant) : Bytes :=
  printYear t.date.year ++ Byte.minus :: Decimal.fixed 2 t.date.month ++
    Byte.minus :: Decimal.fixed 2 t.date.day ++ 0x54 :: Decimal.fixed 2 (t.minute.val / 60) ++
    Byte.colon :: Decimal.fixed 2 (t.minute.val % 60) ++
    Byte.colon :: Decimal.fixed 2 t.second.val

/-- The fraction of a second in milli-, micro- or nanoseconds, whichever shows all of it, and
nothing for a whole second. -/
def printFraction (nano : Nat) : Bytes :=
  if nano = 0 then []
  else if nano % 1000000 = 0 then Byte.point :: Decimal.fixed 3 (nano / 1000000)
  else if nano % 1000 = 0 then Byte.point :: Decimal.fixed 6 (nano / 1000)
  else Byte.point :: Decimal.fixed 9 nano

/-- The instant to the whole second, the fraction cut off. -/
def print (t : Instant) : Bytes := t.printSeconds ++ [0x5A]

/-- The instant with its fraction of a second. -/
def printExact (t : Instant) : Bytes := t.printSeconds ++ printFraction t.nano.val ++ [0x5A]

end Instant

end GoalProgress
