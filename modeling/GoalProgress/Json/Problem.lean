import GoalProgress.Mismatch

/-!
# Why a JSON text could not be read
-/
namespace GoalProgress.Json

/-- The first problem met in a JSON text. -/
inductive Problem where
  /-- The text ends too early. -/
  | truncated
  /-- The text breaks the rules of the format, or of the reader's limits on numbers and nesting. -/
  | malformed
  /-- The text holds another value than the one asked for. -/
  | mismatch (m : Mismatch)

/-- How numbers are shown that are no integers: as positions from `0.00001` to below ten to the
sixteenth, and with an even last digit if two decimals are equally near. -/
def layout : Decimal.Layout where
  tie := .toEven
  leastPositional := -5
  greatestPositional := 15

/-- The wording of a problem. -/
def Problem.message : Problem → String
  | .truncated => "the text ends too early"
  | .malformed => "the text is malformed"
  | .mismatch m => m.message layout

end GoalProgress.Json
