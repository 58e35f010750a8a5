import GoalProgress.Decimal

/-!
# Shortest decimal text of a binary number

A double-precision number is shown with the fewest digits that read back as the same number. Among
the decimals with that many digits the one nearest to the number is taken; the layout says which of
two that are equally near.

The number is decoded into `m · 2 ^ q`; the reals that round to it form an interval, which contains
its ends if `m` is even. For each count of digits the two neighbours of the number on that decimal
grid are tested against the interval in exact arithmetic.

## Main definitions

* `Decimal.Scientific.ofFloat?`: digits and exponent of a finite number.
* `Decimal.Layout`: which exponents are written out as positions, and where ties go.
* `Decimal.printFloat`: the text of a number in a layout.
-/
namespace GoalProgress.Decimal

/-- The decimal `d.ddd · 10 ^ exponent`, by its sign and its digits. -/
structure Scientific where
  negative : Bool
  digits : Bytes
  exponent : Int
deriving DecidableEq, Repr

/-- Which of two decimals is taken that are equally near. -/
inductive Tie where
  /-- The one with an even last digit. -/
  | toEven
  /-- The greater one, signs apart. -/
  | up
deriving DecidableEq, Repr

/-- A positive number between the two ends of its rounding interval, in units of `2 ^ unit`. -/
structure Interval where
  low : Nat
  mid : Nat
  high : Nat
  unit : Int
  closed : Bool

namespace Interval

/-- The rounding interval of `m · 2 ^ q`. The gap below is half as wide at a power of two. -/
def ofBinary (m : Nat) (q : Int) (atPower : Bool) : Interval where
  low := 4 * m - (if atPower then 1 else 2)
  mid := 4 * m
  high := 4 * m + 2
  unit := q - 2
  closed := m % 2 = 0

/-- Factors by which `c · 10 ^ k` and `x · 2 ^ unit` become whole and comparable. -/
def factors (i : Interval) (k : Int) : Nat × Nat :=
  (Nat.pow 10 k.toNat * Nat.pow 2 (-i.unit).toNat, Nat.pow 10 (-k).toNat * Nat.pow 2 i.unit.toNat)

/-- Whether `c · 10 ^ k` lies in the interval. -/
def holds (i : Interval) (k : Int) (c : Nat) : Bool :=
  let (l, r) := i.factors k
  if i.closed then i.low * r ≤ c * l && c * l ≤ i.high * r
  else i.low * r < c * l && c * l < i.high * r

/-- The neighbours of the number on the grid of multiples of `10 ^ k`. -/
def neighbours (i : Interval) (k : Int) : Nat × Nat :=
  let (l, r) := i.factors k
  (i.mid * r / l, i.mid * r / l + 1)

/-- The multiple of `10 ^ k` nearest to the number among those in the interval. -/
def pick? (i : Interval) (tie : Tie) (k : Int) : Option Nat :=
  let (l, r) := i.factors k
  let (a, b) := i.neighbours k
  let below := i.mid * r - a * l
  let above := b * l - i.mid * r
  match i.holds k a && a != 0, i.holds k b with
  | true, true =>
    if below < above then some a
    else if above < below then some b
    else if tie = .toEven ∧ a % 2 = 0 then some a
    else some b
  | true, false => some a
  | false, true => some b
  | false, false => none

/-- The exponent of the leading decimal digit, searched upwards from `k`. -/
def magnitude (i : Interval) (fuel : Nat) (k : Int) : Int :=
  match fuel with
  | 0 => k
  | fuel + 1 => if (i.neighbours (k + 1)).1 = 0 then k else i.magnitude fuel (k + 1)

/-- The first count of digits, from `n` on, for which the grid has a hit. -/
def search (i : Interval) (tie : Tie) (exponent : Int) : (fuel n : Nat) → Nat × Int
  | 0, n => ((i.neighbours (exponent - n + 1)).1, exponent - n + 1)
  | fuel + 1, n =>
    match i.pick? tie (exponent - n + 1) with
    | some c => (c, exponent - n + 1)
    | none => i.search tie exponent fuel (n + 1)

end Interval

/-- Digits without zeros at the end. -/
def trimZeros (bs : Bytes) : Bytes := (bs.reverse.dropWhile (· == Byte.zero)).reverse

/-- The digits and the exponent of a finite number. -/
def Scientific.ofFloat? (tie : Tie) (x : Float) : Option Scientific :=
  let negative := x.toBits >>> 63 == 1
  let field := (x.toBits >>> 52 &&& 0x7FF).toNat
  let fraction := (x.toBits &&& 0xFFFFFFFFFFFFF).toNat
  if field = 0x7FF then none
  else if field = 0 && fraction = 0 then some ⟨negative, [Byte.zero], 0⟩
  else
    let m := if field = 0 then fraction else 0x10000000000000 + fraction
    let q : Int := ((if field = 0 then 1 else field : Nat) : Int) - 1075
    let i := Interval.ofBinary m q (fraction == 0 && field > 1)
    let exponent := i.magnitude 650 (-325)
    let (c, k) := i.search tie exponent 17 1
    let ds := Decimal.digits c
    some ⟨negative, trimZeros ds, k + (ds.length - 1 : Nat)⟩

/-- How a number is laid out: exponents from `leastPositional` to `greatestPositional` are written
as positions, all others after an `e`. -/
structure Layout where
  tie : Tie
  leastPositional : Int
  greatestPositional : Int

/-- Positions for every exponent that a double-precision number can have, and the greater of two
decimals that are equally near. -/
def Layout.positional : Layout where
  tie := .up
  leastPositional := -400
  greatestPositional := 400

/-- A decimal written with its point in place and at least one digit after it. -/
def Scientific.positional (d : Scientific) : Bytes :=
  if d.exponent < 0 then
    Byte.zero :: Byte.point :: List.replicate ((-d.exponent).toNat - 1) Byte.zero ++ d.digits
  else
    let whole := d.exponent.toNat + 1
    let padded := d.digits ++ List.replicate (whole - d.digits.length) Byte.zero
    let fraction := padded.drop whole
    padded.take whole ++ Byte.point :: if fraction.isEmpty then [Byte.zero] else fraction

/-- A decimal written with its exponent after an `e`. -/
def Scientific.exponential (d : Scientific) : Bytes :=
  let rest := d.digits.drop 1
  d.digits.take 1 ++ (if rest.isEmpty then [] else Byte.point :: rest) ++
    0x65 :: (if d.exponent < 0 then Byte.minus else Byte.plus) :: Decimal.digits d.exponent.natAbs

/-- A decimal in a layout, with a minus sign if it is negative. -/
def Scientific.print (layout : Layout) (d : Scientific) : Bytes :=
  (if d.negative then [Byte.minus] else []) ++
    if layout.leastPositional ≤ d.exponent ∧ d.exponent ≤ layout.greatestPositional then
      d.positional
    else d.exponential

/-- The text of a number, with `inf`, `-inf` and `NaN` for the numbers that have no digits. -/
def printFloat (layout : Layout) (x : Float) : Bytes :=
  match Scientific.ofFloat? layout.tie x with
  | some d => d.print layout
  | none =>
    if x.isNaN then Bytes.ofString "NaN"
    else if x < 0 then Bytes.ofString "-inf"
    else Bytes.ofString "inf"

end GoalProgress.Decimal
