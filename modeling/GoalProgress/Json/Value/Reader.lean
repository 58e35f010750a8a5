import GoalProgress.Json.Reader
import GoalProgress.Json.Value

/-!
# Reading whole JSON values

A value is read completely, with all its numbers in range and all its texts decoded. Arrays and
objects may be nested up to a limit.
-/
namespace GoalProgress.Json

/-- The greatest number of arrays and objects around a value. -/
def maxDepth : Nat := 127

namespace Value

/-- A numeral in range. -/
def readNumber (text : Bytes) : Except Problem (Value × Bytes) := do
  let (n, rest) ← readNumeral text
  if n.number?.isNone then throw .malformed
  return (.number n, rest)

/-- The value at the start of a text, with at most `depth` arrays and objects inside one another. -/
def read (depth : Nat) (text : Bytes) : Except Problem (Value × Bytes) :=
  match skipSpace text with
  | [] => .error .truncated
  | b :: rest =>
    if b = 0x6E then (expectWord nullTail rest).map fun rest => (.null, rest)
    else if b = 0x74 then (expectWord trueTail rest).map fun rest => (.boolean true, rest)
    else if b = 0x66 then (expectWord falseTail rest).map fun rest => (.boolean false, rest)
    else if b = Byte.minus ∨ Byte.isDigit b then readNumber (b :: rest)
    else if b = Byte.quote then (readString rest).map fun (s, rest) => (.string s, rest)
    else match depth with
      | 0 => .error .malformed
      | depth + 1 =>
        if b = Byte.openBracket then
          let item := fun (items : List Value) text =>
            (read depth text).map fun (v, rest) => (v :: items, rest)
          (foldItems item true [] rest).map fun (items, rest) => (.array items.reverse, rest)
        else if b = Byte.openBrace then
          let member := fun (members : List (String × Value)) name text => do
            let (v, rest) ← read depth (← expectColon text)
            return ((name, v) :: members, rest)
          (foldMembers member true [] rest).map fun (members, rest) =>
            (.object members.reverse, rest)
        else .error .malformed

end Value

end GoalProgress.Json
