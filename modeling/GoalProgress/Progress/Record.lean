import GoalProgress.Instant

/-!
# Progress records

One user's progress toward one goal.
-/
namespace GoalProgress

/-- The life of a goal for one user. -/
inductive Status where
  | notStarted
  | inProgress
  | completed
  | claimed
deriving DecidableEq, Repr, Inhabited

namespace Status

/-- The name by which a status is shown, written and read. -/
def name : Status → String
  | .notStarted => "not_started"
  | .inProgress => "in_progress"
  | .completed => "completed"
  | .claimed => "claimed"

/-- Every status, from first to last. -/
def all : List Status := [.notStarted, .inProgress, .completed, .claimed]

/-- The status with a given name. -/
def ofName? (s : String) : Option Status := all.find? (·.name == s)

@[simp] theorem ofName?_name (s : Status) : ofName? s.name = some s := by cases s <;> decide

end Status

/-- One user's progress toward one goal. -/
structure ProgressRecord where
  userId : String := ""
  goalId : String
  challengeId : String := ""
  /-- The namespace of the game that the goal belongs to. -/
  gameNamespace : String := ""
  progress : Int32 := 0
  status : Status := .notStarted
  completedAt : Option Instant := none
  claimedAt : Option Instant := none
deriving DecidableEq

end GoalProgress
