import GoalProgress.Bytes

/-!
# The id of a goal object

The id is found by punctuation alone: the first `"goalId"`, the next colon, and the text between the
next two quotes. Escapes are not looked at, so an id with a quote in it is cut short.
-/
namespace GoalProgress

/-- Why no goal id was found. -/
inductive GoalIdError where
  | fieldNotFound
  | missingColon
  | missingOpeningQuote
  | missingClosingQuote
  | invalidUtf8
deriving DecidableEq, Repr

/-- The wording of a failed search. -/
def GoalIdError.message : GoalIdError → String
  | .fieldNotFound => "field not found: goalId"
  | .missingColon => "missing ':' after goalId"
  | .missingOpeningQuote => "missing opening quote for goalId value"
  | .missingClosingQuote => "missing closing quote for goalId value"
  | .invalidUtf8 => "goalId value is not valid UTF-8"

namespace GoalId

/-- The member name with its quotes. -/
def key : Bytes := Bytes.ofString "\"goalId\""

/-- The goal id of one goal object. -/
def ofGoal (goal : Bytes) : Except GoalIdError String := do
  let some start := goal.find? key | throw .fieldNotFound
  let some colon := goal.findByte? Byte.colon (start + key.length) | throw .missingColon
  let some opening := goal.findByte? Byte.quote (colon + 1) | throw .missingOpeningQuote
  let some closing := goal.findByte? Byte.quote (opening + 1) | throw .missingClosingQuote
  match Bytes.toString? ((goal.take closing).drop (opening + 1)) with
  | some id => return id
  | none => throw .invalidUtf8

end GoalId

end GoalProgress
