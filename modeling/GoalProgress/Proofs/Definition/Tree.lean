import GoalProgress.Definition.Printer
import GoalProgress.Progress.Suffix
import GoalProgress.Proofs.Json.Compact

/-!
# Definitions with something in their place

The document of a goal can take further members before its closing brace, and the document of a
challenge can show other objects for its goals. Whatever is put there, the result is a JSON text if
the parts are.

## Main definitions

* `Goal.printWith`: the document of a goal with something before its closing brace.
* `Challenge.printWith`: the document of a challenge that shows given bytes for its goals.
* `Goal.tree`, `Challenge.tree`: the same as trees.
-/
namespace GoalProgress

open Json

/-! ## Goals -/

/-- A requirement as it is printed. -/
def Requirement.tree (r : Requirement) : Tree :=
  .compactObject [
    ("statCode", .ofString r.statCode),
    ("operator", .ofString r.operator),
    ("targetValue", .ofInt r.targetValue.toInt)]

/-- A reward as it is printed. -/
def Reward.tree (r : Reward) : Tree :=
  .compactObject [
    ("type", .ofString r.kind.name),
    ("rewardId", .ofString r.rewardId),
    ("quantity", .ofInt r.quantity.toInt)]

@[simp] theorem Requirement.text_tree (r : Requirement) : r.tree.text = r.toJson.print := by
  simp [tree, toJson, Value.print]

@[simp] theorem Reward.text_tree (r : Reward) : r.tree.text = r.toJson.print := by
  simp [tree, toJson, Value.print]

namespace Goal

/-- The document of a goal with something before its closing brace. -/
def printWith (g : Goal) (suffix : Bytes) : Bytes :=
  g.print.dropLast ++ suffix ++ [Byte.closeBrace]

/-- The members of a goal as they are printed. -/
def members (g : Goal) : List (String × Tree) := [
  ("goalId", .ofString g.id),
  ("name", .ofString g.name),
  ("description", .ofString g.description),
  ("type", .ofString g.kind.name),
  ("eventSource", .ofString g.eventSource.name),
  ("requirement", g.requirement.tree),
  ("reward", g.reward.tree),
  ("prerequisites", .compactArray (g.prerequisites.map .ofString))]

/-- A goal with further members. -/
def tree (g : Goal) (more : List (String × Tree)) : Tree := .compactObject (g.members ++ more)

theorem text_tree_nil (g : Goal) : (g.tree []).text = g.print := by
  simp [tree, members, print, toJson, Value.print, Function.comp_def]

theorem text_tree (g : Goal) (more : List (String × Tree)) :
    (g.tree more).text = g.printWith
      (more.flatMap fun m => Byte.comma :: (quoted .full m.1 ++ Byte.colon :: m.2.text)) := by
  rw [printWith, ← text_tree_nil, tree, tree, List.append_nil]
  exact Tree.text_compactObject_append _ _ more

end Goal

/-! ## Challenges -/

namespace Challenge

/-- The members of a challenge that stand before its goals. -/
def attributes (c : Challenge) : List (String × String) :=
  [("challengeId", c.id), ("name", c.name), ("description", c.description)]

/-- The document of a challenge up to its goals. -/
def heading (c : Challenge) : Bytes :=
  Byte.openBrace :: c.attributes.flatMap fun m =>
    quoted .full m.1 ++ Byte.colon :: (quoted .full m.2 ++ [Byte.comma])

/-- The document of a challenge that shows the given bytes for its goals. -/
def printWith (c : Challenge) (goals : List Bytes) : Bytes :=
  c.heading ++ (Bytes.ofString "\"goals\":[" ++ joined goals ++ Bytes.ofString "]\x7d")

/-- A challenge with given trees for its goals. -/
def tree (c : Challenge) (goals : List Tree) : Tree :=
  .compactObject [
    ("challengeId", .ofString c.id),
    ("name", .ofString c.name),
    ("description", .ofString c.description),
    ("goals", .compactArray goals)]

theorem text_tree (c : Challenge) (goals : List Tree) :
    (c.tree goals).text = c.printWith (goals.map Tree.text) := by
  have hkey : quoted .full "goals" ++ [Byte.colon, Byte.openBracket] =
      Bytes.ofString "\"goals\":[" := by decide
  have hend : Bytes.ofString "]\x7d" = [Byte.closeBracket, Byte.closeBrace] := by decide
  rw [printWith, ← hkey, hend]
  simp [tree, heading, attributes, joined_cons, Value.print]

theorem text_tree_print (c : Challenge) :
    (c.tree (c.goals.map (·.tree []))).text = c.print := by
  simp [tree, print, toJson, Value.print, Function.comp_def, Goal.text_tree_nil, Goal.print]

/-- **The document of a challenge shows the documents of its goals.** -/
theorem printWith_print (c : Challenge) : c.printWith (c.goals.map Goal.print) = c.print := by
  rw [← text_tree_print, text_tree, List.map_map]
  simp only [Function.comp_def, Goal.text_tree_nil]

end Challenge

end GoalProgress
