import GoalProgress.Json.Value
import GoalProgress.Progress.Record

/-!
# Progress records as JSON

A record is an object with its eight members in a fixed order. A timestamp keeps its fraction of a
second; one that is missing is null.
-/
namespace GoalProgress

/-- A timestamp as a JSON value. -/
def Instant.toJson? : Option Instant → Json.Value
  | some t => .string ((Bytes.toString? t.printExact).getD "")
  | none => .null

namespace ProgressRecord

/-- A record as a JSON value. -/
def toJson (r : ProgressRecord) : Json.Value :=
  .object [
    ("userId", .string r.userId),
    ("goalId", .string r.goalId),
    ("challengeId", .string r.challengeId),
    ("namespace", .string r.gameNamespace),
    ("progress", .ofInt r.progress.toInt),
    ("status", .string r.status.name),
    ("completedAt", Instant.toJson? r.completedAt),
    ("claimedAt", Instant.toJson? r.claimedAt)]

/-- The JSON text of a record. -/
def print (r : ProgressRecord) : Bytes := r.toJson.print

/-- The JSON text of a list of records. -/
def printAll (rs : List ProgressRecord) : Bytes := (Json.Value.array (rs.map toJson)).print

end ProgressRecord

end GoalProgress
