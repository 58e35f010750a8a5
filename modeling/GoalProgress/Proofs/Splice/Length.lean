import GoalProgress.Proofs.Progress.Suffix
import GoalProgress.Proofs.Splice.Challenge
import Mathlib.Algebra.BigOperators.Ring.List
import Mathlib.Algebra.Group.Action.Defs
import Mathlib.Algebra.Order.BigOperators.Group.List
import Mathlib.Algebra.Order.Ring.Nat

/-!
# The length of a spliced challenge

Splicing a challenge makes it longer by the suffixes of its goals and by nothing else. A suffix has
a greatest length, and a goal has a least one, so the length of the spliced challenge is limited by
that of its document.
-/
namespace GoalProgress

open Json

theorem Json.length_joined (parts : List Bytes) :
    (joined parts).length = (parts.map List.length).sum + (parts.length - 1) := by
  have hcommas (parts : List Bytes) : (parts.flatMap (Byte.comma :: ·)).length =
      (parts.map List.length).sum + parts.length := by
    simp only [List.length_flatMap, List.length_cons, List.sum_map_add, List.map_const',
      List.sum_const_nat, Nat.mul_one]
  cases parts with
  | nil => rfl
  | cons part parts =>
    rw [joined_cons, List.length_append, hcommas, List.map_cons, List.sum_cons, List.length_cons]
    omega

namespace Goal

/-- A goal has at least its two braces. -/
theorem two_le_length_print (g : Goal) : 2 ≤ g.print.length := by
  rw [print, toJson, Value.print, List.length_cons, List.length_append, List.length_singleton]
  omega

theorem length_printWith (g : Goal) (suffix : Bytes) :
    (g.printWith suffix).length = g.print.length + suffix.length := by
  have hprint := g.two_le_length_print
  simp only [printWith, List.length_append, List.length_dropLast, List.length_singleton]
  omega

end Goal

namespace Challenge

/-- The length of a challenge is that of what it shows for its goals, up to what is around them. -/
theorem length_printWith (c : Challenge) (object : Goal → Bytes) :
    (c.printWith (c.goals.map object)).length + (c.goals.map fun g => g.print.length).sum =
      c.print.length + (c.goals.map fun g => (object g).length).sum := by
  rw [← c.printWith_print]
  simp only [printWith, List.length_append, length_joined, List.map_map, List.length_map,
    Function.comp_def]
  omega

/-- **Splicing adds the suffixes of the goals**, and nothing else. -/
theorem length_spliced (c : Challenge) (lookup : Lookup) :
    (c.spliced lookup).length = c.print.length +
      (c.goals.map fun g => (Suffix.ofRecord? (lookup.get? g.scannedId)).length).sum := by
  have hsum : (c.goals.map fun g => (g.shown (lookup.get? g.scannedId)).length).sum =
      (c.goals.map fun g => g.print.length).sum +
        (c.goals.map fun g => (Suffix.ofRecord? (lookup.get? g.scannedId)).length).sum := by
    simp only [Goal.shown, Goal.length_printWith, List.sum_map_add]
  have hlength := c.length_printWith fun g => g.shown (lookup.get? g.scannedId)
  rw [← spliced, hsum] at hlength
  omega

theorem length_print_le_length_spliced (c : Challenge) (lookup : Lookup) :
    c.print.length ≤ (c.spliced lookup).length := by
  rw [length_spliced]
  exact Nat.le_add_right _ _

/-- A spliced challenge is longer than its document by the greatest length of a suffix for each of
its goals at most. -/
theorem length_spliced_le (c : Challenge) (lookup : Lookup) :
    (c.spliced lookup).length ≤ c.print.length + Suffix.maxLength * c.goals.length := by
  have hsuffixes := List.sum_le_card_nsmul
    (c.goals.map fun g => (Suffix.ofRecord? (lookup.get? g.scannedId)).length) Suffix.maxLength
    (List.forall_mem_map.2 fun g _ => Suffix.length_ofRecord?_le _)
  rw [List.length_map, smul_eq_mul, Nat.mul_comm] at hsuffixes
  rw [length_spliced]
  exact Nat.add_le_add_left hsuffixes _

/-- Every goal of a challenge takes at least two bytes of its document, and so do the braces of the
challenge. -/
theorem two_mul_goals_le (c : Challenge) : 2 * c.goals.length + 2 ≤ c.print.length := by
  have hgoals := List.card_nsmul_le_sum (c.goals.map fun g => g.print.length) 2
    (List.forall_mem_map.2 fun g _ => g.two_le_length_print)
  rw [List.length_map, smul_eq_mul] at hgoals
  have hend : (Bytes.ofString "]\x7d").length = 2 := by decide
  rw [← c.printWith_print]
  simp only [printWith, List.length_append, length_joined, List.map_map, Function.comp_def]
  omega

end Challenge

end GoalProgress
