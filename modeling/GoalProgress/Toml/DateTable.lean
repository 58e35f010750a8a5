import GoalProgress.Toml.Moment
import GoalProgress.Toml.Value

/-!
# Dates written as tables

Apart from its own notation a date may have the form of a table: the first name in it is
`$__toml_private_datetime`, and the value of this name is the date as a text. A table with the name
at any other place is just a table.

## Main definitions

* `Value.withDates`: a value with dates in place of the tables that stand for them.
* `membersWithDates`: the same for the members of a table.
-/
namespace GoalProgress.Toml

/-- Why a table in the form of a date is none. -/
inductive DateFault where
  /-- The value that should be the date is no text. -/
  | notText (v : Value)
  /-- The text is no date, or the date does not stand alone. -/
  | malformed

/-- The name that marks a table as a date. -/
def dateMark : String := "$__toml_private_datetime"

/-- The value under the mark and the members after it, if a table has the form of a date. -/
def marked? : Table → Option (Value × Table)
  | [] => none
  | (name, v) :: others => if name = dateMark then some (v, others) else none

/-- The date that a value under the mark denotes. -/
def readMark : Value → Except DateFault Value
  | .text s => if Moment.isMoment s then .ok .moment else .error .malformed
  | v => .error (.notText v)

/-- The date in a table that has the mark. Members after the mark play no role, unless it has to
stand `alone`. -/
def readMarked (alone : Bool) (v : Value) (others : Table) : Except DateFault Value := do
  let date ← readMark v
  if alone ∧ !others.isEmpty then throw .malformed
  return date

mutual

/-- The value with dates in place of the tables that stand for them, or the first fault. -/
def Value.withDates (alone : Bool) : Value → Except DateFault Value
  | .array items => (itemsWithDates alone items).map .array
  | .table members =>
    match marked? members with
    | some (v, others) => readMarked alone v others
    | none => (membersWithDates alone members).map .table
  | v => .ok v

/-- The items of an array, each with its dates. -/
def itemsWithDates (alone : Bool) : List Value → Except DateFault (List Value)
  | [] => .ok []
  | v :: items => do
    let v ← v.withDates alone
    return v :: (← itemsWithDates alone items)

/-- The members of a table, each with its dates. -/
def membersWithDates (alone : Bool) :
    List (String × Value) → Except DateFault (List (String × Value))
  | [] => .ok []
  | (name, v) :: members => do
    let v ← v.withDates alone
    return (name, v) :: (← membersWithDates alone members)

end

end GoalProgress.Toml
