import GoalProgress.Decimal.Shortest
import GoalProgress.Text.Shown

/-!
# Values of the wrong kind

A file can be well-formed and still hold other values than the ones asked for. This module names
what was found, in what way it differs from what was expected, and how that is worded.
-/
namespace GoalProgress

/-- A value that was found, as far as a message tells. -/
inductive Found where
  | null
  | boolean (b : Bool)
  | integer (n : Int)
  | real (x : Float)
  | text (s : String)
  | sequence
  | map

/-- The wording of a found value, with numbers that are no integers laid out as given. -/
def Found.message (layout : Decimal.Layout) : Found → String
  | .null => "null"
  | .boolean b => "boolean `" ++ toString b ++ "`"
  | .integer n => "integer `" ++ toString n ++ "`"
  | .real x => "floating point `" ++ ((Decimal.printFloat layout x).toString?.getD "") ++ "`"
  | .text s => "string " ++ Text.shown s
  | .sequence => "sequence"
  | .map => "map"

/-- In what way a value differs from what was expected. -/
inductive Mismatch where
  | invalidType (found : Found) (expected : String)
  | invalidValue (n : Int) (expected : String)
  | invalidLength (n : Nat) (expected : String)
  | unknownVariant (name : String) (expected : List String)
  | missingField (name : String)
  | duplicateField (name : String)
  /-- A text that denotes no instant. -/
  | timestamp
  /-- A value that has neither form of a definitions file. -/
  | definitions

/-- The wording of a mismatch. -/
def Mismatch.message (layout : Decimal.Layout) : Mismatch → String
  | .invalidType found expected =>
    "invalid type: " ++ found.message layout ++ ", expected " ++ expected
  | .invalidValue n expected =>
    "invalid value: integer `" ++ toString n ++ "`, expected " ++ expected
  | .invalidLength n expected => "invalid length " ++ toString n ++ ", expected " ++ expected
  | .unknownVariant name expected =>
    "unknown variant `" ++ name ++ "`, expected one of " ++
      ", ".intercalate (expected.map fun e => "`" ++ e ++ "`")
  | .missingField name => "missing field `" ++ name ++ "`"
  | .duplicateField name => "duplicate field `" ++ name ++ "`"
  | .timestamp => "timestamp"
  | .definitions => "data did not match any variant of untagged enum DefinitionsFile"

end GoalProgress
