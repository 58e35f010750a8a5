import GoalProgress.Proofs.Document
import GoalProgress.Proofs.Json.Opening
import GoalProgress.Proofs.Splice.Challenge

/-!
# Splicing into JSON texts

Splicing searches the document of a challenge byte by byte. In a JSON text the search comes to an
array if the bracket that it stops at is outside string literals; the array is then replaced by an
array of the objects in it, with the suffix of each among its members, and the result is a JSON text
again. If the bracket is inside a string literal, the result need not be one.

## Main definitions

* `Splice.OpensOutside`: documents in which the search stops outside string literals.
-/
namespace GoalProgress

open Json

namespace Splice

/-! ## Goals -/

/-- Objects are spliced to objects, if at all. -/
theorem exists_trees_of_numberedGoals {lookup : Lookup} {ordinal : Nat} {objects : List Tree}
    {spliced : List Bytes} (hobjects : ∀ o ∈ objects, ∃ space members, o = .object space members)
    (h : numberedGoals lookup ordinal (objects.map Tree.text) = .ok spliced) :
    ∃ trees : List Tree, spliced = trees.map Tree.text := by
  induction objects generalizing ordinal spliced with
  | nil =>
    cases h
    exact ⟨[], rfl⟩
  | cons o objects ih =>
    rw [List.forall_mem_cons] at hobjects
    obtain ⟨⟨space, members, rfl⟩, hrest⟩ := hobjects
    obtain ⟨id, rest, _, hdocs, rfl⟩ := numberedGoals_cons_eq_ok h
    obtain ⟨trees, rfl⟩ := ih hrest hdocs
    refine ⟨.object space (members ++ suffixMembers (lookup.get? id)) :: trees, ?_⟩
    rw [goal_object]
    rfl

/-! ## Challenges -/

/-- If splicing cuts a document, the bracket that it takes for the start of the goals is outside
string literals. -/
def OpensOutside (doc : Bytes) : Prop :=
  ∀ key opening, doc.find? goalsKey = some key →
    doc.findByte? Byte.openBracket (key + goalsKey.length) = some opening →
    Scan.Literal.outside.after (doc.take opening) = .outside

/-- From a bracket outside string literals on, an array is cut out. Its goals are objects, and any
values can stand in their place. -/
theorem exists_cut_of_opensAt {p : Padded Tree} {before rest : Bytes} {key : Nat}
    (hopens : Scan.OpensAt (Tree.paddedText p) before rest)
    (hkey : (Tree.paddedText p).find? goalsKey = some key)
    (hopening : (Tree.paddedText p).findByte? Byte.openBracket (key + goalsKey.length) =
      some before.length) :
    ∃ (c : Cut) (objects : List Tree), cut (Tree.paddedText p) = .ok (some c) ∧
      c.goals = objects.map Tree.text ∧
      (∀ o ∈ objects, ∃ space members, o = .object space members) ∧
      ∀ trees : List Tree, IsText (c.before ++ joined (trees.map Tree.text) ++ c.after) := by
  have hsplit := hopens.eq
  obtain ⟨before', rest', hvalue, rfl, rfl⟩ := Tree.opensAt_padded hopens
  obtain ⟨space, items, after, harray, hsurrounds⟩ := Tree.exists_array_of_opensAt hvalue
  have hobjects := Tree.slice_objectSpans_items space items
  have hbalanced : Scan.Balanced (space.bytes ++ joined (items.map Tree.paddedText)) :=
    space.balanced_joined fun p _ => Tree.balanced_padded p.value.balanced
  rw [Tree.text, Tree.itemTexts_eq_map, List.cons_append, List.cons.injEq] at harray
  have hrest : rest' ++ p.after.bytes = (space.bytes ++ joined (items.map Tree.paddedText)) ++
      Byte.closeBracket :: (after ++ p.after.bytes) := by
    rw [harray.2]
    simp
  rw [hrest] at hsplit
  rw [hsplit] at hkey hopening ⊢
  refine ⟨_, _, cut_eq hbalanced hkey hopening, hobjects, ?_, ?_⟩
  · intro o ho
    obtain ⟨p, _, ho⟩ := List.mem_flatMap.1 ho
    exact Tree.exists_of_mem_outermost ho
  · intro trees
    obtain ⟨whole, hwhole⟩ := hsurrounds (.compactArray trees)
    refine ⟨⟨p.before, whole, p.after⟩, ?_⟩
    rw [Tree.paddedText, hwhole, Tree.text_compactArray]
    simp

/-- If the bracket is outside string literals, a cut JSON text has objects for its goals, and any
values can stand in their place. -/
theorem exists_objects_of_cut {p : Padded Tree} {c : Cut}
    (hopens : OpensOutside (Tree.paddedText p))
    (hcut : cut (Tree.paddedText p) = .ok (some c)) :
    ∃ objects : List Tree, c.goals = objects.map Tree.text ∧
      (∀ o ∈ objects, ∃ space members, o = .object space members) ∧
      ∀ trees : List Tree, IsText (c.before ++ joined (trees.map Tree.text) ++ c.after) := by
  obtain ⟨key, opening, hkey, hopening⟩ := exists_of_cut_eq_some hcut
  obtain ⟨rest, hsplit, hlength⟩ := Bytes.exists_of_findByte? hopening
  have houtside := hopens key opening hkey hopening
  rw [← hlength] at hopening
  obtain ⟨c', objects, hcut', hobjects⟩ := exists_cut_of_opensAt ⟨hsplit, houtside⟩ hkey hopening
  rw [hcut'] at hcut
  cases hcut
  exact ⟨objects, hobjects⟩

/-- **Splicing into a JSON text gives a JSON text**, if the bracket that it takes for the start of
the goals is outside string literals. The document need not pass the check. -/
theorem isText_challenge {doc : Bytes} (hdoc : IsText doc) (hopens : OpensOutside doc)
    {lookup : Lookup} {spliced : Bytes} (h : challenge doc lookup = .ok spliced) :
    IsText spliced := by
  rcases challenge_eq_ok_iff.1 h with ⟨_, rfl⟩ | ⟨c, goals, hcut, hgoals, rfl⟩
  · exact hdoc
  · obtain ⟨p, rfl⟩ := hdoc
    obtain ⟨objects, hobjects, hshape, htext⟩ := exists_objects_of_cut hopens hcut
    rw [hobjects] at hgoals
    obtain ⟨trees, rfl⟩ := exists_trees_of_numberedGoals hshape hgoals
    exact htext trees

/-- A challenge whose only goal is in an array of its own, beside a text that looks like the end of
the goals. -/
def nested : Tree :=
  .compactObject [("goals", .compactArray [.ofString "]",
    .compactArray [.compactObject [("goalId", .ofString "g")]]])]

theorem isText_challenge_nested :
    IsText nested.text ∧ OpensOutside nested.text ∧
      ∃ spliced, challenge nested.text .empty = .ok spliced ∧ IsText spliced := by
  have hopens : OpensOutside nested.text := by
    intro key opening hkey hopening
    have hkey' : nested.text.find? goalsKey = some 1 := by decide
    rw [hkey'] at hkey
    cases hkey
    have hopening' : nested.text.findByte? Byte.openBracket (1 + goalsKey.length) = some 9 := by
      decide
    rw [hopening'] at hopening
    cases hopening
    decide
  have hspliced : challenge nested.text .empty = .ok _ := rfl
  exact ⟨nested.isText, hopens, _, hspliced, isText_challenge nested.isText hopens hspliced⟩

/-! ## Brackets inside string literals -/

/-- In a JSON text no brace closes more than is open. -/
theorem spansFrom_of_isText {bs : Bytes} (h : IsText bs) :
    (Scan.ObjectState.clear 1 0).spansFrom 0 (bs ++ [Byte.closeBrace]) = [⟨0, bs.length + 1⟩] := by
  obtain ⟨p, rfl⟩ := h
  rw [Scan.ObjectState.spansFrom_balanced (Tree.balanced_padded p.value.balanced),
    Nat.zero_add (Tree.paddedText p).length]
  rfl

/-- A challenge whose goals are no array, but a text with a bracket in it. -/
def misleading : Tree :=
  .compactObject [("goals", .ofString "["), ("b", .compactObject [("c", .ofString "]")])]

/-- The bracket in the text is taken for the start of the goals, and the next one outside of what
then looks like literals for their end. What is between is lost, an opening brace among it. -/
theorem challenge_misleading :
    IsText misleading.text ∧
      misleading.text = Bytes.ofString "\x7b\"goals\":\"[\",\"b\":\x7b\"c\":\"]\"\x7d\x7d" ∧
      Document.check "c" misleading.text = .ok () ∧
      challenge misleading.text .empty = .ok (Bytes.ofString "\x7b\"goals\":\"[]\"\x7d\x7d") ∧
      ¬ IsText (Bytes.ofString "\x7b\"goals\":\"[]\"\x7d\x7d") := by
  refine ⟨misleading.isText, by decide, ?_, rfl, ?_⟩
  · rw [Document.check_eq_ok_iff]
    decide
  · intro htext
    exact absurd (spansFrom_of_isText htext) (by decide)

end Splice

end GoalProgress
