import GoalProgress.Proofs.Definition.Tree
import GoalProgress.Proofs.GoalId
import GoalProgress.Proofs.Json.EscapedText
import GoalProgress.Proofs.Splice.Object

/-!
# Progress in the document of a goal

The document of a goal is an object with members, so its suffix stands behind them, before the last
brace. The id found in the document is its escaped id up to the first quote.

## Main definitions

* `Goal.shown`: the document of a goal with the state of a record.
* `Goal.scannedId`: the id that is found in the document of a goal.
-/
namespace GoalProgress

open Json

/-! ## The suffix of a goal -/

namespace Goal

variable (g : Goal)

theorem isObject_print : Scan.IsObject g.print := by
  rw [← text_tree_nil]
  exact Tree.isObject_object _ _

theorem print_eq_dropLast : g.print = g.print.dropLast ++ [Byte.closeBrace] := by
  rw [← text_tree_nil, tree, Tree.text_compactObject, ← List.cons_append, List.dropLast_concat]

/-- The document of a goal with the state of a record, or of no record. -/
def shown (record : Option ProgressRecord) : Bytes := g.printWith (Suffix.ofRecord? record)

/-- **The suffix of a goal stands before its closing brace.** -/
theorem splice_print (record : Option ProgressRecord) :
    Splice.goal g.print record = g.shown record := by
  rw [← text_tree_nil, tree, List.append_nil, Tree.compactObject, Splice.goal_object,
    Splice.suffixMembers, ← List.map_append, shown, ← Suffix.flatMap_members, ← text_tree]
  rfl

end Goal

/-! ## The id of a goal -/

/-- The id is what stands between the next two quotes behind the first member name and its colon,
whatever else is before these marks. -/
theorem GoalId.ofGoal_first {lead gap gap' content : Bytes} (hlead : Byte.quote ∉ lead)
    (hgap : Byte.colon ∉ gap) (hgap' : Byte.quote ∉ gap') (hcontent : Byte.quote ∉ content)
    (rest : Bytes) :
    GoalId.ofGoal (lead ++ (key ++ (gap ++ Byte.colon :: (gap' ++ Byte.quote ::
      (content ++ Byte.quote :: rest))))) =
      match Bytes.toString? content with
      | some id => .ok id
      | none => .error .invalidUtf8 := by
  generalize hgoal : lead ++ (key ++ (gap ++ Byte.colon :: (gap' ++ Byte.quote ::
    (content ++ Byte.quote :: rest)))) = goal
  have hstart : goal.find? key = some lead.length := by
    rw [← hgoal]
    exact Bytes.find?_of_clear (Bytes.clear_of_not_mem hlead _)
  have hcolon : goal.findByte? Byte.colon (lead ++ key).length =
      some (lead ++ key ++ gap).length :=
    Bytes.findByte?_of_eq hgap (gap' ++ Byte.quote :: (content ++ Byte.quote :: rest))
      (by simp [← hgoal])
  rw [List.length_append] at hcolon
  have hsplit : goal = lead ++ key ++ gap ++ Byte.colon ::
      (gap' ++ Byte.quote :: (content ++ Byte.quote :: rest)) := by
    simp [← hgoal]
  refine ofGoal_of_colon? hsplit ?_ hgap' hcontent
  rw [colon?, hstart]
  exact hcolon

/-- Up to the first quote of some bytes, a quote behind them changes nothing. -/
theorem Bytes.exists_append_quote_eq (bs rest : Bytes) :
    ∃ rest', bs ++ Byte.quote :: rest = bs.takeWhile (· != Byte.quote) ++ Byte.quote :: rest' := by
  induction bs with
  | nil => exact ⟨rest, rfl⟩
  | cons b bs ih =>
    by_cases hb : b = Byte.quote
    · exact ⟨bs ++ Byte.quote :: rest, by simp [hb]⟩
    · obtain ⟨rest', h⟩ := ih
      exact ⟨rest', by simp [hb, h]⟩

namespace Goal

variable (g : Goal)

/-- The id that is found in the document of a goal: its escaped id up to the first quote. -/
def scannedId : String :=
  String.ofList ((escapeText .full g.id).toList.takeWhile (· != '"'))

theorem exists_print_eq_key : ∃ rest, g.print = Byte.openBrace :: (GoalId.key ++ Byte.colon ::
    Byte.quote :: (escape .full (Bytes.ofString g.id) ++ Byte.quote :: rest)) := by
  have hkey : quoted .full "goalId" = GoalId.key := by decide
  refine ⟨(g.members.tail.map fun m => quoted .full m.1 ++ Byte.colon :: m.2.text).flatMap
    (Byte.comma :: ·) ++ [Byte.closeBrace], ?_⟩
  rw [← text_tree_nil, tree, List.append_nil, members, Tree.text_compactObject, List.map_cons,
    joined_cons, hkey, Tree.text_ofString, Value.print, quoted]
  simp

/-- **An id is found in every goal.** -/
theorem ofGoal_print : GoalId.ofGoal g.print = .ok g.scannedId := by
  obtain ⟨rest, hprint⟩ := g.exists_print_eq_key
  obtain ⟨rest', hquote⟩ := Bytes.exists_append_quote_eq (escape .full (Bytes.ofString g.id)) rest
  rw [hquote] at hprint
  have hcontent : (escape .full (Bytes.ofString g.id)).takeWhile (· != Byte.quote) =
      Bytes.ofChars ((escapeText .full g.id).toList.takeWhile (· != '"')) := by
    rw [← ofString_escapeText EscapeStyle.full_sound, Bytes.ofString_eq]
    exact Bytes.takeWhile_ofChars (a := '"') (by decide) _
  have hnot : Byte.quote ∉ (escape .full (Bytes.ofString g.id)).takeWhile (· != Byte.quote) := by
    intro hmem
    have hne := List.all_eq_true.1 List.all_takeWhile _ hmem
    exact absurd rfl (bne_iff_ne.1 hne)
  have hid := GoalId.ofGoal_first (by decide : Byte.quote ∉ [Byte.openBrace]) List.not_mem_nil
    List.not_mem_nil hnot rest'
  rw [hprint]
  refine hid.trans ?_
  rw [hcontent, Bytes.toString?_ofChars]
  rfl

/-- Without a quote in the id, the whole escaped id is found. -/
theorem scannedId_eq (h : '"' ∉ g.id.toList) : g.scannedId = escapeText .full g.id := by
  have hall : ∀ c ∈ (escapeText .full g.id).toList, (c != '"') = true := by
    intro c hc
    rw [bne_iff_ne]
    rintro rfl
    exact h (quote_mem_of_mem_escapeText EscapeStyle.full_sound hc)
  rw [scannedId, ← List.append_nil (escapeText .full g.id).toList,
    List.takeWhile_append_of_pos hall, List.takeWhile_nil, List.append_nil, String.ofList_toList]

/-- **The id that is found is the id of the goal exactly if it needs no escapes.** -/
theorem scannedId_eq_id_iff :
    g.scannedId = g.id ↔ ∀ x ∈ g.id.toList, x ≠ '"' ∧ x ≠ '\\' ∧ 0x20 ≤ x.toNat := by
  rw [← isVerbatim_ofString_iff, ← escapeText_eq_self_iff EscapeStyle.full_sound]
  by_cases hquote : '"' ∈ g.id.toList
  · refine iff_of_false ?_ ?_
    · intro h
      rw [← h, scannedId, String.toList_ofList] at hquote
      have hne := List.all_eq_true.1 List.all_takeWhile _ hquote
      exact absurd rfl (bne_iff_ne.1 hne)
    · intro h
      rw [escapeText_eq_self_iff EscapeStyle.full_sound, isVerbatim_ofString_iff] at h
      exact (h _ hquote).1 rfl
  · rw [g.scannedId_eq hquote]

end Goal

end GoalProgress
