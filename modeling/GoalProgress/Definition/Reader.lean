import GoalProgress.Definition.Decoder
import GoalProgress.Error
import GoalProgress.Json.Value.Reader

/-!
# Reading definitions

A definitions file is one JSON value. It is read as a whole before it is looked at, so that a text
that breaks the rules of the format is reported as such; a value that denotes no challenges is
reported next, and text after the value last. No challenge id may occur twice, and no goal id, not
even in different challenges.

## Main definitions

* `Definition.decode`: the challenges in a text, with repeated ids.
* `Definition.firstRepetition?`: the first id that repeats an earlier one.
* `Definition.parse`: the challenges in a text without repeated ids.
-/
namespace GoalProgress.Definition

/-- The challenges in a text, whether or not ids are repeated. -/
def decode (text : Bytes) : Except Json.Problem (List Challenge) := do
  let (v, rest) ← Json.Value.read Json.maxDepth text
  let some cs := challenges? v | throw (.mismatch .definitions)
  Json.expectNothing rest
  return cs

/-- The first goal id that repeats an earlier one, for the goals of one challenge, and the goal ids
seen after them. -/
def repeatedGoal? (challengeId : String) (seen : List String) :
    List Goal → Except ConfigFault (List String)
  | [] => .ok seen
  | g :: gs =>
    if g.id ∈ seen then .error (.duplicateGoal g.id challengeId)
    else repeatedGoal? challengeId (g.id :: seen) gs

/-- The first id that repeats an earlier one of its sort, a challenge counting before its goals. -/
def firstRepetitionFrom (seenChallenges seenGoals : List String) :
    List Challenge → Option ConfigFault
  | [] => none
  | c :: cs =>
    if c.id ∈ seenChallenges then some (.duplicateChallenge c.id)
    else match repeatedGoal? c.id seenGoals c.goals with
      | .error fault => some fault
      | .ok seenGoals => firstRepetitionFrom (c.id :: seenChallenges) seenGoals cs

/-- The first id of a list of challenges that repeats an earlier one. -/
def firstRepetition? (cs : List Challenge) : Option ConfigFault := firstRepetitionFrom [] [] cs

/-- The challenges in the text of the file at `path`. -/
def parse (text : Bytes) (path : String) : Except Error (List Challenge) :=
  match decode text with
  | .error problem => .error (.json path problem)
  | .ok cs =>
    match firstRepetition? cs with
    | some fault => .error (.config fault (some path))
    | none => .ok cs

end GoalProgress.Definition
