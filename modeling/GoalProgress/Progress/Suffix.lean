import GoalProgress.Json.Escape
import GoalProgress.Progress.Record

/-!
# The progress suffix of a goal

The four members that are spliced into a goal: a comma, then `progress`, `status`, `completedAt` and
`claimedAt` in this order. A timestamp that is missing is the empty string, and a goal without a
record shows the state in which nothing has happened.
-/
namespace GoalProgress.Suffix

/-- The suffix of a goal without a record. -/
def default : Bytes :=
  Bytes.ofString
    ",\"progress\":0,\"status\":\"not_started\",\"completedAt\":\"\",\"claimedAt\":\"\""

/-- A timestamp to the whole second, or nothing. -/
def timestamp : Option Instant → Bytes
  | some t => t.print
  | none => []

/-- The suffix that shows the state of a record. -/
def ofRecord (r : ProgressRecord) : Bytes :=
  Bytes.ofString ",\"progress\":" ++ Decimal.ofInt r.progress.toInt ++
    Bytes.ofString ",\"status\":\"" ++ Json.escape .short (Bytes.ofString r.status.name) ++
    Bytes.ofString "\",\"completedAt\":\"" ++ timestamp r.completedAt ++
    Bytes.ofString "\",\"claimedAt\":\"" ++ timestamp r.claimedAt ++ [Byte.quote]

/-- The suffix of a goal, with or without a record. -/
def ofRecord? : Option ProgressRecord → Bytes
  | some r => ofRecord r
  | none => default

/-- The length that no suffix exceeds. -/
def maxLength : Nat := 128

end GoalProgress.Suffix
