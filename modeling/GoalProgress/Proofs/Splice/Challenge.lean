import GoalProgress.Proofs.Json.Key
import GoalProgress.Proofs.Progress.Lookup
import GoalProgress.Proofs.Splice.Cut
import GoalProgress.Proofs.Splice.Goal

/-!
# Progress in the document of a challenge

In the document of a challenge the first `"goals":` is the name of the goals, whatever the texts
before it contain; the bracket behind it opens the array that ends where the goals end, and the
objects in it are the goals. Each of them gets the progress that is found under the id which is cut
out of it.

## Main definitions

* `Challenge.splice`: the document of a challenge with the progress of every goal.
-/
namespace GoalProgress

open Json

/-! ## The goals in the document -/

theorem Splice.goalsKey_eq : Splice.goalsKey = keyText (Bytes.ofString "goals") := by decide

theorem Splice.isPlainName_goals : IsPlainName (Bytes.ofString "goals") :=
  .of_all (by decide) (by decide)

namespace Challenge

variable (c : Challenge)

/-- The names before the goals are written as they are, and none of them is the name of the
goals. -/
theorem attributes_names {name : String} (h : name ∈ c.attributes.map Prod.fst) :
    escape .full (Bytes.ofString name) = Bytes.ofString name ∧
      IsPlainName (Bytes.ofString name) ∧ Bytes.ofString name ≠ Bytes.ofString "goals" := by
  simp only [attributes, List.map_cons, List.map_nil, List.mem_cons, List.not_mem_nil,
    or_false] at h
  rcases h with rfl | rfl | rfl
  all_goals exact ⟨by decide, .of_all (by decide) (by decide), by decide⟩

/-- **No text before the goals is mistaken for their name.** -/
theorem clear_heading (rest : Bytes) : Bytes.Clear Splice.goalsKey c.heading rest := by
  have hbrace : Byte.quote ∉ [Byte.openBrace] := by decide
  have hmembers (ms : List (String × String)) (h : ∀ m ∈ ms, m ∈ c.attributes) :
      Bytes.Clear Splice.goalsKey (ms.flatMap fun m =>
        quoted .full m.1 ++ Byte.colon :: (quoted .full m.2 ++ [Byte.comma])) rest := by
    induction ms with
    | nil => trivial
    | cons m ms ih =>
      obtain ⟨hverbatim, hplain, hne⟩ :=
        c.attributes_names (List.mem_map_of_mem (h m List.mem_cons_self))
      rw [List.flatMap_cons, Bytes.clear_append]
      refine ⟨?_, ih fun x hx => h x (List.mem_cons_of_mem m hx)⟩
      rw [Splice.goalsKey_eq, quoted, quoted, hverbatim]
      exact clear_member Splice.isPlainName_goals hplain hne
        (isStringText_escape EscapeStyle.full_sound m.2).enclosed _
  rw [heading, ← List.singleton_append, Bytes.clear_append]
  exact ⟨Bytes.clear_of_not_mem hbrace _, hmembers c.attributes fun _ hm => hm⟩

end Challenge

namespace Splice

/-- **In the document of a challenge exactly the goals are spliced, whatever objects they are.** -/
theorem challenge_printWith (c : Challenge) {objects : List Bytes}
    (h : ∀ o ∈ objects, Scan.IsObject o) (lookup : Lookup) :
    challenge (c.printWith objects) lookup =
      (numberedGoals lookup 0 objects).map c.printWith := by
  have hlayout (bs : Bytes) :
      c.heading ++ (Bytes.ofString "\"goals\":[" ++ bs ++ Bytes.ofString "]\x7d") =
        c.heading ++ goalsKey ++
          Byte.openBracket :: (bs ++ Byte.closeBracket :: [Byte.closeBrace]) := by
    have hname : Bytes.ofString "\"goals\":[" = goalsKey ++ [Byte.openBracket] := by decide
    have hend : Bytes.ofString "]\x7d" = [Byte.closeBracket, Byte.closeBrace] := by decide
    rw [hname, hend]
    simp
  have hkey (bs : Bytes) : Bytes.find? (c.heading ++ goalsKey ++ bs) goalsKey =
      some c.heading.length := by
    rw [List.append_assoc]
    exact Bytes.find?_of_clear (c.clear_heading _)
  have hopening (rest : Bytes) : Bytes.findByte?
      (c.heading ++ goalsKey ++ Byte.openBracket :: rest) Byte.openBracket
      (c.heading.length + goalsKey.length) = some (c.heading ++ goalsKey).length := by
    rw [← List.length_append]
    exact Bytes.findByte?_append List.not_mem_nil _ _
  have hbalanced : Scan.Balanced (joined objects) := .joined fun o ho => (h o ho).balanced
  rw [Challenge.printWith, hlayout, challenge_eq_cut, cut_eq hbalanced (hkey _) (hopening _)]
  simp only [bind, Except.bind, Cut.goals, Scan.objects_joined h]
  cases numberedGoals lookup 0 objects with
  | error e => rfl
  | ok spliced =>
    simp only [Except.map, Challenge.printWith, hlayout]
    simp [pure, Except.pure]

/-- Goals in their documents are numbered without a failure. -/
theorem numberedGoals_print (lookup : Lookup) (ordinal : Nat) (gs : List Goal) :
    numberedGoals lookup ordinal (gs.map Goal.print) =
      .ok (gs.map fun g => g.shown (lookup.get? g.scannedId)) := by
  induction gs generalizing ordinal with
  | nil => rfl
  | cons g gs ih =>
    have hfirst : numberedGoal lookup ordinal g.print =
        .ok (g.shown (lookup.get? g.scannedId)) := by
      rw [numberedGoal, g.ofGoal_print]
      simp only [g.splice_print]
    rw [List.map_cons, numberedGoals, hfirst, ih]
    rfl

end Splice

namespace Challenge

/-- The document of a challenge with the progress that is found for every goal. -/
def spliced (c : Challenge) (lookup : Lookup) : Bytes :=
  c.printWith (c.goals.map fun g => g.shown (lookup.get? g.scannedId))

/-- **The document of every challenge can be spliced.** -/
theorem splice_print (c : Challenge) (lookup : Lookup) :
    Splice.challenge c.print lookup = .ok (c.spliced lookup) := by
  have hobjects : ∀ o ∈ c.goals.map Goal.print, Scan.IsObject o := by
    intro o ho
    obtain ⟨g, _, rfl⟩ := List.mem_map.1 ho
    exact g.isObject_print
  rw [← c.printWith_print, Splice.challenge_printWith c hobjects, Splice.numberedGoals_print]
  rfl

/-- **Splicing puts the last record of every goal before its closing brace**, and changes nothing
else, if the ids of the goals need no escapes. All other texts are arbitrary. -/
theorem splice_print_ofList (c : Challenge) (records : List ProgressRecord)
    (h : ∀ g ∈ c.goals, ∀ x ∈ g.id.toList, x ≠ '"' ∧ x ≠ '\\' ∧ 0x20 ≤ x.toNat) :
    c.print = c.printWith (c.goals.map Goal.print) ∧
      (∀ g ∈ c.goals, g.print = g.print.dropLast ++ [Byte.closeBrace]) ∧
      Splice.challenge c.print (.ofList records) =
        .ok (c.printWith (c.goals.map fun g => g.printWith
          (Suffix.ofRecord? (lastWith (·.goalId) g.id records)))) := by
  refine ⟨c.printWith_print.symm, fun g _ => g.print_eq_dropLast, ?_⟩
  have hgoals : (c.goals.map fun g => g.shown ((Lookup.ofList records).get? g.scannedId)) =
      c.goals.map fun g => g.shown (lastWith (·.goalId) g.id records) := by
    refine List.map_congr_left ?_
    intro g hg
    rw [g.scannedId_eq_id_iff.2 (h g hg), Lookup.get?_ofList]
  rw [c.splice_print, spliced, hgoals]
  rfl

/-- A challenge whose texts look like the structure around them. -/
def tricky : Challenge where
  id := "c"
  name := "\"goals\":[\x7b\"goalId\":\""
  description := "\\"
  goals := [{
    id := "g"
    name := "]\x7d\\\""
    requirement := ⟨"\"status\":", ">=", 1⟩
    reward := ⟨.item, "[", -1⟩ }]

theorem splice_print_ofList_tricky :
    (∀ g ∈ tricky.goals, ∀ x ∈ g.id.toList, x ≠ '"' ∧ x ≠ '\\' ∧ 0x20 ≤ x.toNat) ∧
      Splice.challenge tricky.print
          (.ofList [{ goalId := "g", progress := 1 }, { goalId := "g", progress := 2 }]) =
        .ok (tricky.printWith (tricky.goals.map fun g =>
          g.printWith (Suffix.ofRecord { goalId := "g", progress := 2 }))) := by
  have hids : ∀ g ∈ tricky.goals, ∀ x ∈ g.id.toList, x ≠ '"' ∧ x ≠ '\\' ∧ 0x20 ≤ x.toNat := by
    simp [tricky]
  exact ⟨hids, (splice_print_ofList tricky _ hids).2.2.trans rfl⟩

end Challenge

end GoalProgress
