import GoalProgress.Proofs.Json.Frame
import GoalProgress.Proofs.Splice.Served
import GoalProgress.Proofs.Splice.Text

/-!
# Challenges of any layout

A challenge that is already printed may be spaced in any way and may have any members before and
behind its goals. Splicing extends exactly its goals if the first opening bracket behind the first
`"goals":` is the one of their array, and each of them has its id under a name without escapes. If a
space stands before the colon, the goals are left as they are; if the name of an id has an escape,
the id is not found.

## Main definitions

* `Json.Content.withProgress`: what a challenge says with the progress of its goals.
* `Splice.Layout`: a challenge with its goals in an array.
* `Splice.Layout.Reached`: layouts in which the search gets to the goals.
-/
namespace GoalProgress

open Json

/-! ## What is to be shown -/

namespace Json.Content

/-- The text under a name, if the first member of the name has a text for its value. -/
def text? (name : String) : Content → Option String
  | .object members =>
    match members.find? (·.1 = .text name) with
    | some (_, .string (.text s)) => some s
    | _ => none
  | _ => none

variable (lookup : Lookup)

/-- What a goal says with the progress under its id. -/
def goalWithProgress (goal : Content) : Content :=
  match goal, goal.text? "goalId" with
  | .object members, some id => .object (members ++ Suffix.contents (lookup.get? id))
  | _, _ => goal

theorem goalWithProgress_object {members : List (StringValue × Content)} {id : String}
    (h : text? "goalId" (.object members) = some id) :
    goalWithProgress lookup (.object members) =
      .object (members ++ Suffix.contents (lookup.get? id)) := by
  simp only [goalWithProgress, h]

/-- What an array of goals says with their progress. -/
def goalsWithProgress : Content → Content
  | .array goals => .array (goals.map (goalWithProgress lookup))
  | c => c

/-- What a challenge says with the progress of its goals. -/
def withProgress : Content → Content
  | .object members => .object (members.map fun m =>
      if m.1 = .text "goals" then (m.1, goalsWithProgress lookup m.2) else m)
  | c => c

/-- Members with other names stay as they are. -/
theorem withProgress_object {left right : List (StringValue × Content)}
    (h : ∀ m ∈ left ++ right, m.1 ≠ .text "goals") (goals : Content) :
    withProgress lookup (.object (left ++ (.text "goals", goals) :: right)) =
      .object (left ++ (.text "goals", goalsWithProgress lookup goals) :: right) := by
  have hsame {ms : List (StringValue × Content)} (h : ∀ m ∈ ms, m.1 ≠ .text "goals") :
      (ms.map fun m => if m.1 = .text "goals" then (m.1, goalsWithProgress lookup m.2) else m) =
        ms := by
    rw [List.map_congr_left fun m hm => if_neg (h m hm), List.map_id']
  rw [List.forall_mem_append] at h
  rw [withProgress, List.map_append, List.map_cons, hsame h.1, hsame h.2, if_pos rfl]

end Json.Content

/-! ## Goals -/

namespace Splice

/-- A goal that starts with its id, a text without escapes. -/
inductive Identified : Tree → Prop
  | object {space : Space} {first : Member Tree} {others : List (Member Tree)} {s : StringText}
      (hname : first.name.value = .text "goalId") (hvalue : first.value.value = .string s)
      (hs : Byte.backslash ∉ s.bytes) : Identified (.object space (first :: others))

theorem Identified.outermost_eq {t : Tree} (h : Identified t) : t.outermost = [t] := by
  cases h
  rfl

/-- The name of the first member of an object, as it is spelled. -/
def firstName? : Tree → Option Bytes
  | .object _ (first :: _) => some first.name.bytes
  | _ => none

/-- What a goal says its id is. -/
theorem text?_content (space : Space) (others : List (Member Tree)) {first : Member Tree}
    {s : StringText} {id : String} (hname : first.name.value = .text "goalId")
    (hvalue : first.value.value = .string s) (hid : s.value = .text id) :
    (Tree.object space (first :: others)).content.text? "goalId" = some id := by
  rw [Tree.content_object, List.map_cons, Tree.memberContent, hname, hvalue, Tree.content, hid]
  rfl

/-- With its progress a goal says more than before. -/
theorem Identified.goalWithProgress_ne {t : Tree} (h : Identified t) (lookup : Lookup) :
    t.content.goalWithProgress lookup ≠ t.content := by
  cases h with
  | @object space first others s hname hvalue hs =>
    obtain ⟨id, hid, _⟩ := StringText.exists_value_eq hs
    have htext := text?_content space others hname hvalue hid
    rw [Tree.content_object] at htext ⊢
    rw [Content.goalWithProgress_object lookup htext, ne_eq, Content.object.injEq,
      List.append_right_eq_self]
    exact List.cons_ne_nil _ _

/-- The id of a goal is found under an unescaped name in front, however it is spaced. -/
theorem ofGoal_object {space : Space} {first : Member Tree} {others : List (Member Tree)}
    {s : StringText} (hname : first.name.bytes = Bytes.ofString "goalId")
    (hvalue : first.value.value = .string s) (hs : Byte.backslash ∉ s.bytes) :
    ∃ id, s.value = .text id ∧
      GoalId.ofGoal (Tree.object space (first :: others)).text = .ok id := by
  obtain ⟨id, hid, hbytes⟩ := StringText.exists_value_eq hs
  have hlead : Byte.quote ∉ Byte.openBrace :: (space.bytes ++ first.before.bytes) := by
    rw [List.mem_cons, List.mem_append]
    rintro (hbrace | hmem | hmem)
    · exact absurd hbrace (by decide)
    · exact space.not_mem rfl hmem
    · exact first.before.not_mem rfl hmem
  have hkey : GoalId.key = Byte.quote :: (Bytes.ofString "goalId" ++ [Byte.quote]) := by decide
  have hfind := GoalId.ofGoal_first hlead (first.after.not_mem rfl)
    (first.value.before.not_mem rfl) (StringText.quote_not_mem hs)
    (first.value.after.bytes ++ (others.map Tree.memberText).flatMap (Byte.comma :: ·) ++
      [Byte.closeBrace])
  rw [hbytes, Bytes.toString?_ofString, hkey] at hfind
  refine ⟨id, hid, ?_⟩
  rw [Tree.text, Tree.memberTexts_eq_map, List.map_cons, joined_cons, Tree.memberText,
    Tree.paddedText, hvalue, Tree.text, StringText.quoted, StringText.quoted, hname, hbytes]
  simpa using hfind

/-- **A goal that starts with its id is extended by the progress under this id.** -/
theorem Identified.exists_numberedGoal {t : Tree} (h : Identified t)
    (hname : firstName? t = some (Bytes.ofString "goalId")) (lookup : Lookup) (ordinal : Nat) :
    ∃ t' : Tree, numberedGoal lookup ordinal t.text = .ok t'.text ∧
      t'.content = t.content.goalWithProgress lookup := by
  cases h with
  | @object space first others s hfirst hvalue hs =>
    obtain ⟨id, hid, hfind⟩ := ofGoal_object (Option.some.inj hname) hvalue hs
    refine ⟨.object space (first :: others ++ suffixMembers (lookup.get? id)), ?_, ?_⟩
    · rw [numberedGoal, hfind]
      simp only [goal_object]
    · have htext := text?_content space others hfirst hvalue hid
      rw [Tree.content_object] at htext
      rw [Tree.content_object, Tree.content_object, List.map_append,
        Suffix.memberContent_suffixMembers, Content.goalWithProgress_object lookup htext]

/-- **Goals that start with their ids are all extended.** -/
theorem exists_numberedGoals (lookup : Lookup) {items : List (Padded Tree)}
    (h : ∀ p ∈ items, Identified p.value)
    (hnames : ∀ p ∈ items, firstName? p.value = some (Bytes.ofString "goalId")) (ordinal : Nat) :
    ∃ trees : List Tree,
      numberedGoals lookup ordinal (items.map (·.value.text)) = .ok (trees.map Tree.text) ∧
      trees.map Tree.content = items.map (·.value.content.goalWithProgress lookup) := by
  induction items generalizing ordinal with
  | nil => exact ⟨[], rfl, rfl⟩
  | cons p items ih =>
    rw [List.forall_mem_cons] at h hnames
    obtain ⟨t, ht, hcontent⟩ := h.1.exists_numberedGoal hnames.1 lookup ordinal
    obtain ⟨trees, htrees, hcontents⟩ := ih h.2 hnames.2 (ordinal + 1)
    refine ⟨t :: trees, ?_, ?_⟩
    · rw [List.map_cons, numberedGoals, ht, htrees]
      rfl
    · rw [List.map_cons, List.map_cons, hcontent, hcontents]

/-! ## Challenges -/

/-- A challenge in any layout: one of its members has the name of the goals, and its value is an
array of goals. -/
structure Layout extends Frame where
  /-- The space behind the opening bracket of the array. -/
  inner : Space
  goals : List (Padded Tree)
  named : hole.name.value = .text "goals"
  single : ∀ m ∈ left ++ right, m.name.value ≠ .text "goals"
  identified : ∀ p ∈ goals, Identified p.value

namespace Layout

variable (l : Layout)

/-- The challenge as it is written. -/
def tree : Padded Tree := l.fill (.array l.inner l.goals)

/-- The text of the challenge. -/
def text : Bytes := Tree.paddedText l.tree

/-- The text between the brackets of the array. -/
def interior : Bytes := l.inner.bytes ++ joined (l.goals.map Tree.paddedText)

/-- The first opening bracket behind the first `"goals":` is the one of the array. -/
def Reached : Prop :=
  ∃ key, l.text.find? goalsKey = some key ∧
    l.text.findByte? Byte.openBracket (key + goalsKey.length) = some l.front.length

/-- Every object with exactly one member of that name has such a layout, if the value of the member
is an array of goals. -/
theorem exists_tree_eq {before space after : Space} {members : List (Member Tree)}
    {m : Member Tree} {inner : Space} {goals : List (Padded Tree)}
    (hsingle : members.filter (·.name.value = .text "goals") = [m])
    (harray : m.value.value = .array inner goals) (hgoals : ∀ p ∈ goals, Identified p.value) :
    ∃ l : Layout, l.tree = ⟨before, .object space members, after⟩ := by
  obtain ⟨f, hfill, hnamed, hothers⟩ := Frame.exists_fill_eq before space after hsingle
  rw [harray] at hfill
  exact ⟨⟨f, inner, goals, hnamed, hothers, hgoals⟩, hfill⟩

theorem text_eq : l.text = l.front ++ Byte.openBracket ::
    (l.interior ++ Byte.closeBracket :: l.back) := by
  rw [text, tree, Frame.text_fill, Tree.text, Tree.itemTexts_eq_map, interior]
  simp

theorem cut_eq (h : l.Reached) : cut l.text =
    .ok (some ⟨l.front ++ [Byte.openBracket], l.interior, Byte.closeBracket :: l.back⟩) := by
  obtain ⟨key, hkey, hopening⟩ := h
  have hbalanced : Scan.Balanced l.interior :=
    l.inner.balanced_joined fun p _ => Tree.balanced_padded p.value.balanced
  rw [text_eq] at hkey hopening ⊢
  exact Splice.cut_eq hbalanced hkey hopening

/-- The goals that splicing cuts out are the items of the array. -/
theorem slices_eq : (Scan.objectSpans l.interior).map (·.slice l.interior) =
    l.goals.map (·.value.text) := by
  have hobjects := List.map_congr_left fun p hp => (l.identified p hp).outermost_eq
  rw [interior, Tree.slice_objectSpans_items, List.flatMap_def, hobjects, ← List.flatMap_def,
    ← List.map_eq_flatMap, List.map_map]
  rfl

/-- The search gets to the goals if their name is spelled without escapes, the colon follows at
once, and these bytes do not occur before. -/
theorem reached_of_clear (hname : l.hole.name.bytes = Bytes.ofString "goals")
    (hcolon : l.hole.after.bytes = [])
    (hclear : ∀ rest, Bytes.Clear goalsKey l.lead rest) : l.Reached := by
  have hfront : l.front = l.lead ++ goalsKey ++ l.hole.value.before.bytes := by
    rw [Frame.front, StringText.quoted, hname, hcolon, goalsKey_eq, keyText]
    simp
  refine ⟨l.lead.length, ?_, ?_⟩
  · rw [text_eq, hfront, List.append_assoc, List.append_assoc]
    exact Bytes.find?_of_clear (hclear _)
  · rw [text_eq, hfront, ← List.length_append]
    exact Bytes.findByte?_of_eq (l.hole.value.before.not_mem rfl)
      (l.interior ++ Byte.closeBracket :: l.back) (by simp)

/-- What a challenge says with the progress of its goals, member by member. -/
theorem content_withProgress (lookup : Lookup) : l.tree.value.content.withProgress lookup =
    .object (l.left.map Tree.memberContent ++
      (.text "goals", .array (l.goals.map (·.value.content.goalWithProgress lookup))) ::
        l.right.map Tree.memberContent) := by
  have hothers : ∀ m ∈ l.left.map Tree.memberContent ++ l.right.map Tree.memberContent,
      m.1 ≠ .text "goals" := by
    rw [← List.map_append]
    exact List.forall_mem_map.2 l.single
  rw [tree, Frame.content_fill, l.named, Content.withProgress_object lookup hothers,
    Tree.content_array, Content.goalsWithProgress, List.map_map]
  rfl

/-- If the search gets to the goals and the names of their ids have no escapes, a challenge with its
progress says what it said, with the progress of every goal. -/
theorem exists_says_of_reached (hreached : l.Reached)
    (hnames : ∀ p ∈ l.goals, firstName? p.value = some (Bytes.ofString "goalId"))
    (lookup : Lookup) :
    ∃ spliced, challenge l.text lookup = .ok spliced ∧
      Says spliced (l.tree.value.content.withProgress lookup) := by
  obtain ⟨trees, hspliced, hcontents⟩ := exists_numberedGoals lookup l.identified hnames 0
  refine ⟨Tree.paddedText (l.fill (.compactArray trees)), ?_, ?_⟩
  · refine challenge_eq_ok_iff.2 (.inr ⟨_, trees.map Tree.text, l.cut_eq hreached, ?_, ?_⟩)
    · rw [Cut.goals, l.slices_eq]
      exact hspliced
    · rw [Frame.text_fill, Tree.text_compactArray]
      simp
  · refine ⟨_, rfl, ?_⟩
    rw [l.content_withProgress, Frame.content_fill, l.named, Tree.content_compactArray, hcontents]

/-- **A challenge is spliced whatever its layout.** Every JSON object with exactly one member of the
name of the goals has a layout, if the value of the member is an array of goals that start with
their ids. If the search gets to these goals and the names of their ids have no escapes, splicing
succeeds, and the result says what the challenge said, with the progress of every goal. The search
gets there if the name of the goals is spelled without escapes, the colon follows at once, and these
bytes do not occur before. -/
theorem exists_says_challenge :
    (∀ (before space after : Space) (members : List (Member Tree)) (m : Member Tree)
        (inner : Space) (goals : List (Padded Tree)),
      members.filter (·.name.value = .text "goals") = [m] → m.value.value = .array inner goals →
        (∀ p ∈ goals, Identified p.value) →
          ∃ l : Layout, l.tree = ⟨before, .object space members, after⟩) ∧
    ∀ l : Layout,
      (l.Reached → (∀ p ∈ l.goals, firstName? p.value = some (Bytes.ofString "goalId")) →
        ∀ lookup, ∃ spliced, challenge l.text lookup = .ok spliced ∧
          Says spliced (l.tree.value.content.withProgress lookup)) ∧
      (l.hole.name.bytes = Bytes.ofString "goals" → l.hole.after.bytes = [] →
        (∀ rest, Bytes.Clear goalsKey l.lead rest) → l.Reached) :=
  ⟨fun _ _ _ _ _ _ _ => exists_tree_eq,
    fun l => ⟨l.exists_says_of_reached, l.reached_of_clear⟩⟩

/-- A challenge that is left as it is does not show the progress of its goals, if it has any. -/
theorem not_says_text (h : l.goals ≠ []) (lookup : Lookup) :
    ¬ Says l.text (l.tree.value.content.withProgress lookup) := by
  intro hsays
  have hsame := hsays.unique (Tree.says_content l.tree)
  rw [content_withProgress, tree, Frame.content_fill, l.named, Tree.content_array,
    Content.object.injEq, List.append_cancel_left_eq, List.cons.injEq,
    Prod.mk.injEq, Content.array.injEq, List.map_inj_left] at hsame
  obtain ⟨p, hp⟩ := List.exists_mem_of_ne_nil _ h
  exact (l.identified p hp).goalWithProgress_ne lookup (hsame.1.2 p hp)

end Layout

/-! ## Spellings -/

/-- Some space. -/
def blank : Space := ⟨[Byte.lineFeed, Byte.space], List.all_eq_true.1 rfl⟩

theorem value_goalId : (StringText.ofString EscapeStyle.full_sound "goalId").value =
    .text "goalId" :=
  StringText.value_ofString EscapeStyle.full_sound (by decide)

/-- A challenge with one goal, beside a text and an object that mention goals, with space at every
token but before the colon of the goals. -/
def spacious : Layout where
  before := blank
  after := blank
  space := blank
  left := [⟨blank, .ofString EscapeStyle.full_sound "a", blank, ⟨blank, .object blank
    [⟨blank, .ofString EscapeStyle.full_sound "goals", blank, ⟨blank, .array blank [], blank⟩⟩],
    blank⟩⟩]
  hole := ⟨blank, .ofString EscapeStyle.full_sound "goals", .none, ⟨blank, (), blank⟩⟩
  right := [⟨blank, .ofString EscapeStyle.full_sound "b", blank,
    ⟨blank, .ofString "\"goals\":[", blank⟩⟩]
  inner := blank
  goals := [⟨blank, .object blank [⟨blank, .ofString EscapeStyle.full_sound "goalId", blank,
    ⟨blank, .ofString "g", blank⟩⟩], blank⟩]
  named := StringText.value_ofString EscapeStyle.full_sound (by decide)
  single := by
    have ha : (StringText.ofString EscapeStyle.full_sound "a").value = .text "a" :=
      StringText.value_ofString EscapeStyle.full_sound (by decide)
    have hb : (StringText.ofString EscapeStyle.full_sound "b").value = .text "b" :=
      StringText.value_ofString EscapeStyle.full_sound (by decide)
    simp [ha, hb]
  identified := List.forall_mem_singleton.2 (.object value_goalId rfl (by decide))

theorem exists_says_challenge_spacious :
    spacious.Reached ∧
      (∀ p ∈ spacious.goals, firstName? p.value = some (Bytes.ofString "goalId")) ∧
      ∃ out, challenge spacious.text .empty = .ok out ∧
        Says out (spacious.tree.value.content.withProgress .empty) := by
  have hreached : spacious.Reached := ⟨_, rfl, by decide⟩
  have hnames : ∀ p ∈ spacious.goals, firstName? p.value = some (Bytes.ofString "goalId") :=
    List.forall_mem_singleton.2 (by decide)
  exact ⟨hreached, hnames,
    (Layout.exists_says_challenge.2 spacious).1 hreached hnames .empty⟩

/-- A challenge that is nothing but one goal, with space before the colon of the goals and the name
of the id given. -/
def bareLayout (gap : Space) (name : StringText) (h : name.value = .text "goalId") : Layout where
  before := .none
  after := .none
  space := .none
  left := []
  hole := ⟨.none, .ofString EscapeStyle.full_sound "goals", gap, ⟨.none, (), .none⟩⟩
  right := []
  inner := .none
  goals := [⟨.none, .object .none [⟨.none, name, .none, ⟨.none, .ofString "g", .none⟩⟩], .none⟩]
  named := StringText.value_ofString EscapeStyle.full_sound (by decide)
  single := nofun
  identified := List.forall_mem_singleton.2 (.object h rfl (by decide))

/-- The name of an id, spelled with an escape. -/
def escapedGoalId : StringText where
  bytes := Bytes.ofString "goal\\u0049d"
  valid := (isStringText_of_all (Bytes.ofString "goal") (by decide)).append
    (.digits (a := 0x30) (b := 0x30) (c := 0x34) (d := 0x39) (List.all_eq_true.1 rfl)
      (isStringText_of_all (Bytes.ofString "d") (by decide)))

theorem value_escapedGoalId : escapedGoalId.value = .text "goalId" :=
  StringText.value_of_read [] rfl

/-- With a space before the colon the goals are not found and left as they are; with an escape in
the name of its id a goal is an error. -/
theorem challenge_of_spellings :
    (∃ l : Layout, l.text = Bytes.ofString "\x7b\"goals\" :[\x7b\"goalId\":\"g\"\x7d]\x7d" ∧
      Document.check "c" l.text = .ok () ∧ challenge l.text .empty = .ok l.text ∧
      ¬ Says l.text (l.tree.value.content.withProgress .empty)) ∧
    ∃ l : Layout, l.text = Bytes.ofString "\x7b\"goals\":[\x7b\"goal\\u0049d\":\"g\"\x7d]\x7d" ∧
      Document.check "c" l.text = .ok () ∧
      challenge l.text .empty = .error (.goalIdExtraction 0 .fieldNotFound) := by
  refine ⟨⟨bareLayout ⟨[Byte.space], List.all_eq_true.1 rfl⟩ _ value_goalId, by decide, ?_, rfl,
    ?_⟩, bareLayout .none _ value_escapedGoalId, by decide, ?_, rfl⟩
  · rw [Document.check_eq_ok_iff]
    decide
  · exact Layout.not_says_text _ (by decide) .empty
  · rw [Document.check_eq_ok_iff]
    decide

end Splice

end GoalProgress
