import GoalProgress.Definition
import GoalProgress.Json.Value

/-!
# Definitions as JSON

Every member is written, in a fixed order and without space between the tokens. These texts are the
static documents of challenges and goals.
-/
namespace GoalProgress

open Json (Value)

/-- A requirement as a JSON value. -/
def Requirement.toJson (r : Requirement) : Value :=
  .object [
    ("statCode", .string r.statCode),
    ("operator", .string r.operator),
    ("targetValue", .ofInt r.targetValue.toInt)]

/-- A reward as a JSON value. -/
def Reward.toJson (r : Reward) : Value :=
  .object [
    ("type", .string r.kind.name),
    ("rewardId", .string r.rewardId),
    ("quantity", .ofInt r.quantity.toInt)]

namespace Goal

/-- A goal as a JSON value. -/
def toJson (g : Goal) : Value :=
  .object [
    ("goalId", .string g.id),
    ("name", .string g.name),
    ("description", .string g.description),
    ("type", .string g.kind.name),
    ("eventSource", .string g.eventSource.name),
    ("requirement", g.requirement.toJson),
    ("reward", g.reward.toJson),
    ("prerequisites", .array (g.prerequisites.map .string))]

/-- The document of a goal. -/
def print (g : Goal) : Bytes := g.toJson.print

end Goal

namespace Challenge

/-- A challenge as a JSON value. -/
def toJson (c : Challenge) : Value :=
  .object [
    ("challengeId", .string c.id),
    ("name", .string c.name),
    ("description", .string c.description),
    ("goals", .array (c.goals.map Goal.toJson))]

/-- The document of a challenge. -/
def print (c : Challenge) : Bytes := c.toJson.print

/-- A list of challenges as a JSON text. -/
def printAll (cs : List Challenge) : Bytes := (Value.array (cs.map toJson)).print

end Challenge

end GoalProgress
