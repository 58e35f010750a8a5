import GoalProgress.Progress.Record
import Std.Data.ExtTreeMap

/-!
# Progress by goal

The records of one request, found by goal id. Of several records for one goal the last one counts.
-/
namespace GoalProgress

/-- Progress records by goal id. -/
structure Lookup where
  records : Std.ExtTreeMap String ProgressRecord

namespace Lookup

/-- No records. -/
def empty : Lookup := ⟨∅⟩

/-- The record of a goal. -/
def get? (l : Lookup) (goalId : String) : Option ProgressRecord := l.records[goalId]?

/-- The number of goals that have a record. -/
def size (l : Lookup) : Nat := l.records.size

/-- Whether no goal has a record. -/
def isEmpty (l : Lookup) : Bool := l.records.isEmpty

/-- Add a record, in place of the one that its goal had before. -/
def insert (l : Lookup) (r : ProgressRecord) : Lookup := ⟨l.records.insert r.goalId r⟩

/-- The lookup of a list of records, the later ones winning. -/
def ofList (rs : List ProgressRecord) : Lookup := rs.foldl insert empty

@[simp] theorem get?_empty (goalId : String) : empty.get? goalId = none := by simp [get?, empty]

theorem get?_insert (l : Lookup) (r : ProgressRecord) (goalId : String) :
    (l.insert r).get? goalId = if r.goalId = goalId then some r else l.get? goalId := by
  simp [get?, insert, Std.ExtTreeMap.getElem?_insert]

end Lookup

end GoalProgress
