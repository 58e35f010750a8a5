import GoalProgress.Progress.Lookup
import GoalProgress.Proofs.Table

/-!
# The record of a goal

Of the records of one request, a goal is shown the last one that has its id.
-/
namespace GoalProgress.Lookup

/-- **The last record of a goal is the one that is found.** -/
theorem get?_ofList (rs : List ProgressRecord) (goalId : String) :
    (ofList rs).get? goalId = lastWith (·.goalId) goalId rs := by
  rw [ofList, get_foldl_write get?_insert, get?_empty, Option.or_none, Option.map_id']

end GoalProgress.Lookup
