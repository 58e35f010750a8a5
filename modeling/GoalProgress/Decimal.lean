import GoalProgress.Bytes

/-!
# Decimal numbers as text

Numbers are written in base ten, either with as few digits as they need or filled up with zeros to a
given width. `Decimal.value` reads digits back.
-/
namespace GoalProgress.Decimal

/-- The byte of a digit below ten. -/
def digit (n : Nat) : UInt8 := Byte.zero + UInt8.ofNat (n % 10)

/-- The decimal digits of a number, without leading zeros. -/
def digits (n : Nat) : Bytes :=
  if n < 10 then [digit n] else digits (n / 10) ++ [digit n]
termination_by n

/-- The last `width` decimal digits of a number, with leading zeros. -/
def fixed : (width n : Nat) → Bytes
  | 0, _ => []
  | width + 1, n => fixed width (n / 10) ++ [digit n]

/-- The decimal digits of a number, filled up with leading zeros to at least `width` digits. -/
def atLeast (width n : Nat) : Bytes :=
  List.replicate (width - (digits n).length) Byte.zero ++ digits n

/-- An integer in decimal: a minus sign for negative numbers, then the digits. -/
def ofInt : Int → Bytes
  | .ofNat n => digits n
  | .negSucc n => Byte.minus :: digits (n + 1)

/-- The number that a string of decimal digits stands for. -/
def value (bs : Bytes) : Nat := bs.foldl (fun n b => 10 * n + (b - Byte.zero).toNat) 0

@[simp] theorem length_fixed (width n : Nat) : (fixed width n).length = width := by
  induction width generalizing n with
  | zero => rfl
  | succ width ih => simp [fixed, ih]

end GoalProgress.Decimal
