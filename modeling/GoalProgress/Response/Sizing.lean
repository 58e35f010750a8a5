import GoalProgress.Bytes

/-!
# How much room a response is given

The room for a response is estimated before it is built: the static bytes, an allowance for the
envelope and one for every goal. The estimate is limited to a multiple of the static bytes, whatever
the allowances are, and all arithmetic stops at the greatest number of 64 bits. It has no influence
on the response itself.

## Main definitions

* `Sizing`: the allowances.
* `Sizing.reserve`: the room for a given number of static bytes and goals.
-/
namespace GoalProgress

/-- A number of bytes, of 64 bits. -/
abbrev ByteCount := UInt64

namespace ByteCount

/-- The greatest number of bytes. -/
def maximum : Nat := UInt64.size - 1

/-- A number, or the greatest number of bytes if it is greater. -/
def clip (n : Nat) : ByteCount := UInt64.ofNat (min n maximum)

/-- The sum, or the greatest number. -/
def plus (a b : ByteCount) : ByteCount := clip (a.toNat + b.toNat)

/-- The product, or the greatest number. -/
def times (a b : ByteCount) : ByteCount := clip (a.toNat * b.toNat)

@[simp] theorem toNat_clip (n : Nat) : (clip n).toNat = min n maximum := by
  simp only [clip, UInt64.toNat_ofNat', maximum, UInt64.size]
  omega

@[simp] theorem toNat_plus (a b : ByteCount) :
    (plus a b).toNat = min (a.toNat + b.toNat) maximum := toNat_clip _

@[simp] theorem toNat_times (a b : ByteCount) :
    (times a b).toNat = min (a.toNat * b.toNat) maximum := toNat_clip _

end ByteCount

/-- The allowances of the estimate. -/
structure Sizing where
  /-- Bytes for the envelope. -/
  envelopeOverhead : ByteCount := 100
  /-- Bytes for the suffix of every goal. -/
  goalOverhead : ByteCount := 150
deriving DecidableEq, Repr

namespace Sizing

/-- The allowances unless others are configured. -/
def default : Sizing := {}

/-- The most bytes reserved for every static byte, suffixes apart. -/
def maxGrowth : ByteCount := 4

/-- The most bytes reserved for the suffix of a goal. -/
def maxSuffix : ByteCount := 128

/-- The room for `static` bytes with `goals` goals and an allowance for the envelope. A goal has at
least two bytes, so more goals than half the static bytes are not believed. -/
def reserve (s : Sizing) (static goals envelope : ByteCount) : ByteCount :=
  let goals := min goals (static / 2)
  let wanted := (static.plus envelope).plus (goals.times s.goalOverhead)
  let ceiling := (static.times maxGrowth).plus (goals.times maxSuffix)
  min wanted ceiling

end Sizing

end GoalProgress
