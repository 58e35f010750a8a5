/-!
# Digits as characters

The numbers that digits stand for, in any base up to sixteen.
-/
namespace GoalProgress.Text

/-- Whether a character is a digit in a base, letters counting from ten on in either case. -/
def isDigitIn (base : Nat) (c : Char) : Bool :=
  if c.isDigit then c.toNat - '0'.toNat < base
  else if 'a' ≤ c && c ≤ 'f' then c.toNat - 'a'.toNat + 10 < base
  else 'A' ≤ c && c ≤ 'F' && c.toNat - 'A'.toNat + 10 < base

/-- The number that a digit stands for. -/
def digitValue (c : Char) : Nat :=
  if c.isDigit then c.toNat - '0'.toNat
  else if 'a' ≤ c then c.toNat - 'a'.toNat + 10
  else c.toNat - 'A'.toNat + 10

/-- The number that a string of digits stands for. -/
def number (base : Nat) (cs : List Char) : Nat := cs.foldl (fun n c => base * n + digitValue c) 0

end GoalProgress.Text
