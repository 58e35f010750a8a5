import GoalProgress.Proofs.Bytes.Search
import GoalProgress.Proofs.Progress.Suffix
import GoalProgress.Proofs.Scan.Tree
import GoalProgress.Splice.Goal

/-!
# Splicing into an object

A suffix is put before the last closing brace of its goal, and this is the closing brace of an
object. Whether the suffix keeps its comma is decided by the last byte before the brace that is no
blank; in an object this byte is an opening brace exactly if there are no members.

## Main definitions

* `Json.TakesComma`: bytes behind which a member needs a comma.
* `Json.Tree.unclosed`: an object up to its closing brace.
* `Splice.suffixBehind`: the suffix that goes behind the members of an object.
* `Splice.suffixMembers`: the members that are put into an object.
-/
namespace GoalProgress

open Json

/-! ## Members behind the last one -/

namespace Json

theorem lastInk?_space (space : Space) : space.bytes.lastInk? = none := by
  rw [Bytes.lastInk?, Bytes.firstInk?, List.find?_eq_none]
  intro b hb
  have hspace := space.valid b (List.mem_reverse.1 hb)
  simp only [isSpace, Bool.or_eq_true, beq_iff_eq] at hspace
  rcases hspace with ((rfl | rfl) | rfl) | rfl <;> decide

/-- Bytes behind which a member needs a comma: they end, but for blanks, with a byte that opens no
object. -/
def TakesComma (bs : Bytes) : Prop := ∃ b, bs.lastInk? = some b ∧ b ≠ Byte.openBrace

theorem TakesComma.append {cs : Bytes} (h : TakesComma cs) (bs : Bytes) :
    TakesComma (bs ++ cs) := by
  obtain ⟨b, hb, hne⟩ := h
  refine ⟨b, ?_, hne⟩
  rw [Bytes.lastInk?_append, hb]
  rfl

/-- What has no brace for its last ink takes a comma behind something that does. -/
theorem TakesComma.append_of_ne {bs cs : Bytes} (h : TakesComma bs)
    (hcs : cs.lastInk? ≠ some Byte.openBrace) : TakesComma (bs ++ cs) := by
  cases hlast : cs.lastInk? with
  | none =>
    obtain ⟨b, hb, hne⟩ := h
    exact ⟨b, by rw [Bytes.lastInk?_append, hlast, hb]; rfl, hne⟩
  | some b =>
    refine TakesComma.append ⟨b, hlast, ?_⟩ bs
    rintro rfl
    exact hcs hlast

theorem lastInk?_ne_of_inert {bs : Bytes} (h : ∀ b ∈ bs, Scan.isInert b = true) :
    bs.lastInk? ≠ some Byte.openBrace := by
  intro hlast
  exact Bool.false_ne_true (h _ (Bytes.mem_of_lastInk? hlast))

namespace Tree

/-- No value ends with an opening brace. -/
theorem lastInk?_text_ne (t : Tree) : t.text.lastInk? ≠ some Byte.openBrace := by
  have hend {b : UInt8} (hb : Byte.isBlank b = false) (hne : b ≠ Byte.openBrace) (bs : Bytes) :
      Bytes.lastInk? (bs ++ [b]) ≠ some Byte.openBrace := by
    rw [Bytes.lastInk?_append_singleton hb, ne_eq, Option.some.injEq]
    exact hne
  cases t with
  | null => rw [text]; exact lastInk?_ne_of_inert (List.all_eq_true.1 rfl)
  | boolean b => cases b <;> rw [text] <;> exact lastInk?_ne_of_inert (List.all_eq_true.1 rfl)
  | number n => rw [text]; exact lastInk?_ne_of_inert n.valid.inert
  | string s => rw [text]; exact hend rfl (by decide) (Byte.quote :: s.bytes)
  | array space items =>
    rw [text]
    exact hend rfl (by decide) (Byte.openBracket :: (space.bytes ++ joined (itemTexts items)))
  | object space members =>
    rw [text]
    exact hend rfl (by decide) (Byte.openBrace :: (space.bytes ++ joined (memberTexts members)))

/-- The text of an object up to its closing brace. -/
def unclosed (space : Space) (members : List (Member Tree)) : Bytes :=
  Byte.openBrace :: (space.bytes ++ joined (members.map memberText))

theorem text_object (space : Space) (members : List (Member Tree)) :
    (object space members).text = unclosed space members ++ [Byte.closeBrace] := by
  rw [text, memberTexts_eq_map, unclosed, List.cons_append]

theorem takesComma_member (m : Member Tree) : TakesComma (memberText m) := by
  have hcolon : TakesComma [Byte.colon] := ⟨Byte.colon, by decide, by decide⟩
  have hspace (space : Space) : space.bytes.lastInk? ≠ some Byte.openBrace := by
    rw [lastInk?_space]
    exact nofun
  have hvalue := ((hcolon.append_of_ne (hspace m.value.before)).append_of_ne
    m.value.value.lastInk?_text_ne).append_of_ne (hspace m.value.after)
  have hmember := hvalue.append (m.before.bytes ++ m.name.quoted ++ m.after.bytes)
  rw [memberText, paddedText]
  simpa using hmember

theorem takesComma_joined (m : Member Tree) (members : List (Member Tree)) :
    TakesComma (joined ((m :: members).map memberText)) := by
  induction members generalizing m with
  | nil => simpa [joined_cons] using takesComma_member m
  | cons next members ih =>
    rw [List.map_cons, joined_cons_of_ne_nil _ (by simp), List.append_cons]
    exact (ih next).append _

end Tree

end Json

/-! ## The place of a suffix -/

namespace Splice

/-- The suffix goes before the last closing brace. -/
theorem goal_of_last {after : Bytes} (h : Byte.closeBrace ∉ after) (before : Bytes)
    (record : Option ProgressRecord) :
    goal (before ++ Byte.closeBrace :: after) record =
      before ++ suffixAfter before record ++ Byte.closeBrace :: after := by
  rw [goal, Bytes.lastByte?_append h]
  simp only [List.take_left, List.drop_left]

/-- A suffix is never nothing, with or without its comma. -/
theorem suffixAfter_ne_nil (bs : Bytes) (record : Option ProgressRecord) :
    suffixAfter bs record ≠ [] := by
  have hlength := Suffix.one_lt_length record
  rw [suffixAfter, ne_eq, List.drop_eq_nil_iff]
  split <;> omega

/-- The suffix as members without space. -/
def suffixMembers (record : Option ProgressRecord) : List (Member Tree) :=
  (Suffix.members record).map fun m => Tree.member m.1 m.2

theorem flatMap_suffixMembers (record : Option ProgressRecord) :
    ((suffixMembers record).map Tree.memberText).flatMap (Byte.comma :: ·) =
      Suffix.ofRecord? record := by
  rw [← Suffix.flatMap_members, suffixMembers, List.map_map, List.flatMap_map]
  simp only [Function.comp_def, Tree.memberText_member]

/-- Without its first comma the suffix is the members joined. -/
theorem joined_suffixMembers (record : Option ProgressRecord) :
    joined ((suffixMembers record).map Tree.memberText) = (Suffix.ofRecord? record).drop 1 := by
  rw [← flatMap_suffixMembers, suffixMembers, Suffix.members]
  simp [joined_cons]

/-- An object counts as empty exactly if it has no members, whatever stands before it. -/
theorem isEmptyObject_unclosed (lead : Bytes) (space : Space) (members : List (Member Tree)) :
    isEmptyObject (lead ++ Tree.unclosed space members) = members.isEmpty := by
  cases members with
  | nil =>
    have hink := Bytes.lastInk?_append (lead ++ [Byte.openBrace]) space.bytes
    rw [lastInk?_space, Option.none_or, Bytes.lastInk?_append_singleton rfl] at hink
    rw [isEmptyObject, Tree.unclosed, List.map_nil, joined_nil, List.append_nil, List.append_cons,
      hink]
    rfl
  | cons m members =>
    obtain ⟨b, hb, hne⟩ := (Tree.takesComma_joined m members).append
      (lead ++ Byte.openBrace :: space.bytes)
    rw [isEmptyObject, Tree.unclosed, List.isEmpty_cons, beq_eq_false_iff_ne, ← List.cons_append,
      ← List.append_assoc, hb, ne_eq, Option.some.injEq]
    exact hne

/-- The suffix as it stands behind the members of an object. -/
def suffixBehind (members : List (Member Tree)) (record : Option ProgressRecord) : Bytes :=
  (Suffix.ofRecord? record).drop (if members.isEmpty then 1 else 0)

theorem unclosed_append_suffixBehind (space : Space) (members : List (Member Tree))
    (record : Option ProgressRecord) :
    Tree.unclosed space members ++ suffixBehind members record =
      Tree.unclosed space (members ++ suffixMembers record) := by
  cases members with
  | nil =>
    have hsuffix := joined_suffixMembers record
    simp [Tree.unclosed, suffixBehind, hsuffix]
  | cons m members =>
    have hsuffix := joined_append (Tree.memberText m) (members.map Tree.memberText)
      ((suffixMembers record).map Tree.memberText)
    rw [flatMap_suffixMembers] at hsuffix
    simp [Tree.unclosed, suffixBehind, ← hsuffix]

/-- **In an object the suffix is put behind the members**, whatever stands around the object. -/
theorem goal_unclosed {after : Bytes} (hafter : Byte.closeBrace ∉ after) (lead : Bytes)
    (space : Space) (members : List (Member Tree)) (record : Option ProgressRecord) :
    goal (lead ++ Tree.unclosed space members ++ Byte.closeBrace :: after) record =
      lead ++ Tree.unclosed space members ++ suffixBehind members record ++
        Byte.closeBrace :: after := by
  rw [goal_of_last hafter, suffixAfter, isEmptyObject_unclosed, suffixBehind]

/-- **There the suffix becomes members.** -/
theorem goal_around {after : Bytes} (hafter : Byte.closeBrace ∉ after) (lead : Bytes)
    (space : Space) (members : List (Member Tree)) (record : Option ProgressRecord) :
    goal (lead ++ (Tree.object space members).text ++ after) record =
      lead ++ (Tree.object space (members ++ suffixMembers record)).text ++ after := by
  have hgoal := goal_unclosed hafter lead space members record
  rw [Tree.text_object, Tree.text_object, ← unclosed_append_suffixBehind]
  simpa using hgoal

/-- **In an object the suffix becomes members**, behind those that it has or as the only ones. -/
theorem goal_object (space : Space) (members : List (Member Tree))
    (record : Option ProgressRecord) :
    goal (Tree.object space members).text record =
      (Tree.object space (members ++ suffixMembers record)).text := by
  have hgoal := goal_around List.not_mem_nil [] space members record
  rwa [List.append_nil, List.append_nil, List.nil_append, List.nil_append] at hgoal

end Splice

end GoalProgress
