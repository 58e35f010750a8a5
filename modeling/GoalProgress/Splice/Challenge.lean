import GoalProgress.Error
import GoalProgress.Progress.Lookup
import GoalProgress.Scan.Bracket
import GoalProgress.Scan.Span
import GoalProgress.Splice.Goal

/-!
# Splicing progress into a challenge

The goals of a challenge are the top-level objects of the array after the first `"goals":`. Each is
found by scanning, looked up by its id, and gets its suffix; the goals are joined by single commas,
and all bytes outside the array are kept.
-/
namespace GoalProgress.Splice

/-- The member name that the goals stand after, with its quotes and colon. -/
def goalsKey : Bytes := Bytes.ofString "\"goals\":"

/-- The `ordinal`-th goal of a challenge with its progress spliced in. -/
def numberedGoal (lookup : Lookup) (ordinal : Nat) (doc : Bytes) : Except Error Bytes :=
  match GoalId.ofGoal doc with
  | .ok id => .ok (goal doc (lookup.get? id))
  | .error cause => .error (.goalIdExtraction ordinal cause)

/-- The goals, numbered from `ordinal` on, each with its progress spliced in. -/
def numberedGoals (lookup : Lookup) (ordinal : Nat) : List Bytes → Except Error (List Bytes)
  | [] => .ok []
  | doc :: docs => do
    let first ← numberedGoal lookup ordinal doc
    let rest ← numberedGoals lookup (ordinal + 1) docs
    return first :: rest

/-- The interior of a goals array with the progress of every goal spliced in. -/
def interior (lookup : Lookup) (bs : Bytes) : Except Error Bytes := do
  let goals ← numberedGoals lookup 0 ((Scan.objectSpans bs).map (·.slice bs))
  return [Byte.comma].intercalate goals

/-- A challenge document with the progress of every goal spliced in. Bytes without a goals member
are left as they are. -/
def challenge (doc : Bytes) (lookup : Lookup) : Except Error Bytes := do
  let some key := doc.find? goalsKey | return doc
  let some opening := doc.findByte? Byte.openBracket (key + goalsKey.length)
    | throw (.malformedGoals .missingOpening)
  let some closing := Scan.closingBracket? doc opening
    | throw (.malformedGoals .missingClosing)
  let goals ← interior lookup ((doc.take closing).drop (opening + 1))
  return doc.take (opening + 1) ++ goals ++ doc.drop closing

end GoalProgress.Splice
