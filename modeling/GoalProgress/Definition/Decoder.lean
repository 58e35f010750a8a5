import GoalProgress.Definition
import GoalProgress.Json.Value

/-!
# Definitions from JSON values

A structure may be written as an object, its members in any order and unknown ones ignored, or as an
array of its values in order, of which trailing ones with a default may be missing. A choice among
names may be written as a text, or as an object with that name and null. No value may be null in
place of a default, and no known member may occur twice.

## Main definitions

* `Definition.challenges?`: the challenges that a JSON value denotes.
-/
namespace GoalProgress.Definition

open Json (Value Number)

/-! ## Single values -/

/-- A text. -/
def text? : Value → Option String
  | .string s => some s
  | _ => none

/-- An integer of 32 bits. -/
def int32? : Value → Option Int32
  | .number n =>
    match n.number? with
    | some (.integer i) => Json.int32? i
    | _ => none
  | _ => none

/-- One of several choices by its name. -/
def choice? {α : Type} (all : List α) (name : α → String) : Value → Option α
  | .string s => all.find? (name · == s)
  | .object [(s, .null)] => all.find? (name · == s)
  | _ => none

/-- Every item of an array. -/
def list? {α : Type} (item : Value → Option α) : Value → Option (List α)
  | .array vs => vs.mapM item
  | _ => none

/-! ## Structures -/

/-- The values of a structure by the names of its members, in order; none where a value is
missing. -/
def members? (names : List String) : Value → Option (List (Option Value))
  | .object ms =>
    names.mapM fun name =>
      match ms.filter (·.1 == name) with
      | [] => some none
      | [m] => some (some m.2)
      | _ => none
  | .array vs =>
    if vs.length ≤ names.length then
      some (vs.map some ++ List.replicate (names.length - vs.length) none)
    else none
  | _ => none

/-- A value that has to be there. -/
def required? {α : Type} (decode : Value → Option α) (v : Option Value) : Option α := v.bind decode

/-- A value that may be missing, but has to be right if it is there. -/
def optional? {α : Type} (decode : Value → Option α) (default : α) : Option Value → Option α
  | none => some default
  | some v => decode v

/-- The requirement that a value denotes. -/
def requirement? (v : Value) : Option Requirement := do
  let [statCode, operator, targetValue] ← members? ["statCode", "operator", "targetValue"] v | none
  return {
    statCode := ← required? text? statCode
    operator := ← optional? text? ">=" operator
    targetValue := ← required? int32? targetValue }

/-- The reward that a value denotes. -/
def reward? (v : Value) : Option Reward := do
  let [kind, rewardId, quantity] ← members? ["type", "rewardId", "quantity"] v | none
  return {
    kind := ← required? (choice? RewardKind.all RewardKind.name) kind
    rewardId := ← required? text? rewardId
    quantity := ← required? int32? quantity }

/-- The goal that a value denotes. -/
def goal? (v : Value) : Option Goal := do
  let [id, name, description, kind, eventSource, requirement, reward, prerequisites] ← members?
    ["goalId", "name", "description", "type", "eventSource", "requirement", "reward",
      "prerequisites"] v | none
  return {
    id := ← required? text? id
    name := ← required? text? name
    description := ← optional? text? "" description
    kind := ← optional? (choice? GoalKind.all GoalKind.name) .absolute kind
    eventSource := ← optional? (choice? EventSource.all EventSource.name) .statistic eventSource
    requirement := ← required? requirement? requirement
    reward := ← required? reward? reward
    prerequisites := ← optional? (list? text?) [] prerequisites }

/-- The challenge that a value denotes. -/
def challenge? (v : Value) : Option Challenge := do
  let [id, name, description, goals] ← members? ["challengeId", "name", "description", "goals"] v
    | none
  return {
    id := ← required? text? id
    name := ← required? text? name
    description := ← optional? text? "" description
    goals := ← optional? (list? goal?) [] goals }

/-- The challenges that a value denotes: a list of them, or an object with such a list as the member
`challenges`. -/
def challenges? : Value → Option (List Challenge)
  | .array vs => vs.mapM challenge?
  | .object ms =>
    match ms.filter (·.1 == "challenges") with
    | [m] => list? challenge? m.2
    | _ => none
  | _ => none

end GoalProgress.Definition
