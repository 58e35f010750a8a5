import GoalProgress.Scan.Literal

/-!
# The end of an array

Starting after an opening bracket, the matching closing bracket is the first one that is met while
no further bracket is open. Brackets inside string literals do not count.
-/
namespace GoalProgress.Scan

/-- The distance to the closing bracket that none of the bytes before it opens, with `depth`
brackets open besides. -/
def closingFrom (s : Literal) (depth : Nat) : Bytes → Option Nat
  | [] => none
  | b :: rest =>
    if s.isStructural b && b == Byte.closeBracket then
      match depth with
      | 0 => some 0
      | depth + 1 => (closingFrom (s.next b) depth rest).map (· + 1)
    else if s.isStructural b && b == Byte.openBracket then
      (closingFrom (s.next b) (depth + 1) rest).map (· + 1)
    else (closingFrom (s.next b) depth rest).map (· + 1)

/-- The position of the bracket that closes the array opened at position `start`, unless no array is
opened there or it never ends. -/
def closingBracket? (bs : Bytes) (start : Nat) : Option Nat :=
  match bs.drop start with
  | [] => none
  | b :: rest =>
    if b = Byte.openBracket then (closingFrom .outside 0 rest).map (· + (start + 1)) else none

end GoalProgress.Scan
