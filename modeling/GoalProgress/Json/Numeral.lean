import GoalProgress.Json.Problem

/-!
# Numbers in JSON texts

A numeral is kept as it is written: sign, digits and exponent. Its number is an exact integer if it
has neither fraction nor exponent and fits into 64 bits, and a double-precision number otherwise.
Numerals beyond the range of double precision have no number.

## Main definitions

* `Json.Numeral`, `Json.readNumeral`: a numeral and its reader.
* `Json.Numeral.number?`: the number that a numeral stands for.
-/
namespace GoalProgress.Json

/-- A numeral by its parts. -/
structure Numeral where
  negative : Bool
  /-- The digits before the point. -/
  whole : Bytes
  /-- The digits after the point; none without a point. -/
  fraction : Bytes
  exponent : Option Int
deriving DecidableEq, Repr

namespace Numeral

/-- The numeral of an integer. -/
def ofInt (n : Int) : Numeral := ⟨n < 0, Decimal.digits n.natAbs, [], none⟩

/-- The numeral with an `e` for its exponent. -/
def print (n : Numeral) : Bytes :=
  (if n.negative then [Byte.minus] else []) ++ n.whole ++
    (if n.fraction.isEmpty then [] else Byte.point :: n.fraction) ++
    match n.exponent with
    | none => []
    | some e => 0x65 :: Decimal.ofInt e

end Numeral

/-! ## Reading -/

/-- A run of at least one digit. -/
def readDigits (text : Bytes) : Except Problem (Bytes × Bytes) :=
  match text.takeWhile Byte.isDigit with
  | [] => .error (if text.isEmpty then .truncated else .malformed)
  | ds => .ok (ds, text.dropWhile Byte.isDigit)

/-- The digits before the point: a single zero, or digits that do not start with zero. -/
def readWhole (text : Bytes) : Except Problem (Bytes × Bytes) := do
  let (ds, rest) ← readDigits text
  if ds.head? = some Byte.zero ∧ 1 < ds.length then throw .malformed
  return (ds, rest)

/-- A point and digits, or nothing. -/
def readFraction : Bytes → Except Problem (Bytes × Bytes)
  | [] => .ok ([], [])
  | b :: rest => if b = Byte.point then readDigits rest else .ok ([], b :: rest)

/-- An optional sign; the flag tells whether it is a minus. -/
def readSign : Bytes → Bool × Bytes
  | [] => (false, [])
  | b :: rest =>
    if b = Byte.minus then (true, rest)
    else if b = Byte.plus then (false, rest)
    else (false, b :: rest)

/-- An `e` of either case, an optional sign and digits, or nothing. -/
def readExponent : Bytes → Except Problem (Option Int × Bytes)
  | [] => .ok (none, [])
  | b :: rest =>
    if b = 0x65 ∨ b = 0x45 then do
      let (negative, rest) := readSign rest
      let (ds, rest) ← readDigits rest
      let e := (Decimal.value ds : Int)
      return (some (if negative then -e else e), rest)
    else .ok (none, b :: rest)

/-- A numeral at the start of the text. -/
def readNumeral (text : Bytes) : Except Problem (Numeral × Bytes) := do
  let negative := text.head? = some Byte.minus
  let (whole, rest) ← readWhole (if negative then text.drop 1 else text)
  let (fraction, rest) ← readFraction rest
  let (exponent, rest) ← readExponent rest
  return (⟨negative, whole, fraction, exponent⟩, rest)

/-! ## Numbers -/

/-- The number that a numeral stands for. -/
inductive Number where
  | integer (n : Int)
  | real (x : Float)

/-- What a message tells of a number. -/
def Number.found : Number → Found
  | .integer n => .integer n
  | .real x => .real x

namespace Numeral

/-- The greatest number of 64 bits, which also bounds the digits that a real number is computed
from. -/
def maxWord : Nat := UInt64.size - 1

/-- A number continued by digits as long as it fits into 64 bits, and how many digits were used. -/
def extend (n : Nat) : Bytes → Nat × Nat
  | [] => (n, 0)
  | d :: ds =>
    let longer := 10 * n + (d - Byte.zero).toNat
    if longer ≤ maxWord then
      let (m, used) := extend longer ds
      (m, used + 1)
    else (n, 0)

/-- The power of ten nearest to `10 ^ n`. -/
def powerOfTen (n : Nat) : Float := Float.ofScientific 1 false n

/-- The quotient of a number and `10 ^ n`, in steps of at most 308 decimal places. -/
def scaleDown (x : Float) (n : Nat) : Float :=
  if n ≤ 308 then x / powerOfTen n
  else if x == 0 then x
  else scaleDown (x / powerOfTen 308) (n - 308)
termination_by n
decreasing_by omega

/-- The number `x · 10 ^ e`, unless it is out of range. -/
def scale? (x : Float) (e : Int) : Option Float :=
  match e with
  | .negSucc n => some (scaleDown x (n + 1))
  | .ofNat n =>
    if n ≤ 308 then
      let y := x * powerOfTen n
      if y.isInf then none else some y
    else if x == 0 then some x
    else none

/-- The real number that a numeral stands for, computed from the digits that fit into 64 bits.
Digits before the point beyond those only count as places. -/
def real? (n : Numeral) : Option Float :=
  let (w, usedWhole) := extend 0 n.whole
  let (m, usedFraction) := extend w n.fraction
  let places := (n.whole.length - usedWhole : Int) - usedFraction
  let magnitude :=
    match n.exponent with
    | none => scale? (UInt64.ofNat m).toFloat places
    | some e =>
      if Int32.maxValue.toInt < e.natAbs then if m = 0 ∨ e < 0 then some 0.0 else none
      else scale? (UInt64.ofNat m).toFloat (places + e)
  magnitude.map fun x => if n.negative then -x else x

/-- The number that a numeral stands for, unless it is out of range. Minus zero is no integer. -/
def number? (n : Numeral) : Option Number :=
  let magnitude := Decimal.value n.whole
  if !n.fraction.isEmpty || n.exponent.isSome then n.real?.map .real
  else if n.negative then
    if 0 < magnitude ∧ Int64.minValue.toInt ≤ -(magnitude : Int) then
      some (.integer (-(magnitude : Int)))
    else n.real?.map .real
  else if magnitude ≤ maxWord then some (.integer magnitude)
  else n.real?.map .real

end Numeral

/-- The integers of 32 bits. -/
def int32? (n : Int) : Option Int32 :=
  if Int32.minValue.toInt ≤ n ∧ n ≤ Int32.maxValue.toInt then some (Int32.ofInt n) else none

end GoalProgress.Json
