import GoalProgress.Proofs.Splice.Layout

/-!
# Goals of any layout

A goal may be spaced in any way, and its id may stand anywhere among its members. What is found is
its id if the first colon behind the first `"goalId"` is the one behind the name of the id, and only
then is it found there. Without such a name before the id this is so. If there is one, as in an
object inside the goal or as a text, another text can be found in place of the id; and if the name
is spelled with escapes, no id may be found at all.

## Main definitions

* `GoalId.Layout`: a goal with its id.
* `GoalId.Layout.Reached`: layouts in which the search gets to the id.
-/
namespace GoalProgress

open Json

namespace GoalId

/-- A goal in any layout: one of its members has the name of the id, and its value is a text without
escapes. -/
structure Layout extends Frame where
  id : StringText
  named : hole.name.value = .text "goalId"
  single : ∀ m ∈ left ++ right, m.name.value ≠ .text "goalId"
  unescaped : Byte.backslash ∉ id.bytes

namespace Layout

variable (l : Layout)

/-- The goal as it is written. -/
def tree : Padded Tree := l.fill (.string l.id)

/-- The text of the goal. -/
def text : Bytes := Tree.paddedText l.tree

/-- Where the text of the id stands. -/
def span : Scan.Span where
  start := (l.front ++ [Byte.quote]).length
  stop := (l.front ++ Byte.quote :: l.id.bytes).length

/-- The text before the colon behind the name of the id. -/
def nameFront : Bytes := l.lead ++ l.hole.name.quoted ++ l.hole.after.bytes

/-- The first colon behind the first `"goalId"` is the one behind the name of the id. -/
def Reached : Prop := colon? l.text = some l.nameFront.length

/-- Every object with exactly one member of that name has such a layout, if the value of the member
is a text without escapes. -/
theorem exists_tree_eq {before space after : Space} {members : List (Member Tree)}
    {m : Member Tree} {id : StringText}
    (hsingle : members.filter (·.name.value = .text "goalId") = [m])
    (hid : m.value.value = .string id) (hunescaped : Byte.backslash ∉ id.bytes) :
    ∃ l : Layout, l.tree = ⟨before, .object space members, after⟩ := by
  obtain ⟨f, hfill, hnamed, hothers⟩ := Frame.exists_fill_eq before space after hsingle
  rw [hid] at hfill
  exact ⟨⟨f, id, hnamed, hothers, hunescaped⟩, hfill⟩

theorem front_eq : l.front = l.nameFront ++ Byte.colon :: l.hole.value.before.bytes := by
  rw [Frame.front, nameFront]

theorem text_eq : l.text = l.nameFront ++ Byte.colon :: (l.hole.value.before.bytes ++
    Byte.quote :: (l.id.bytes ++ Byte.quote :: l.back)) := by
  rw [text, tree, Frame.text_fill, Tree.text, StringText.quoted, front_eq]
  simp

/-- **The id is read where it stands exactly if its colon is found.** -/
theorem place_text_iff : place l.text = .ok l.span ↔ l.Reached := by
  constructor
  · intro hplace
    have hsplit : l.text = l.lead ++ Byte.quote :: l.hole.name.bytes ++ Byte.quote ::
        (l.hole.after.bytes ++ Byte.colon :: (l.hole.value.before.bytes ++
          Byte.quote :: (l.id.bytes ++ Byte.quote :: l.back))) := by
      rw [text_eq, nameFront, StringText.quoted]
      simp
    have hcolon := colon?_of_place hsplit (l.hole.after.not_mem rfl)
      (l.hole.value.before.not_mem rfl) hplace (by
        rw [span, front_eq, nameFront, StringText.quoted]
        simp)
    rw [Reached, hcolon, nameFront, StringText.quoted]
    simp
  · intro h
    rw [place_of_colon? l.text_eq h (l.hole.value.before.not_mem rfl)
      (StringText.quote_not_mem l.unescaped), span, front_eq]
    simp

/-- The search gets to the id if its name is spelled without escapes and these bytes do not occur
before. -/
theorem reached_of_clear (hname : l.hole.name.bytes = Bytes.ofString "goalId")
    (hclear : ∀ rest, Bytes.Clear key l.lead rest) : l.Reached := by
  have hkey : l.hole.name.quoted = key := by
    rw [StringText.quoted, hname]
    decide
  have hfind : l.text.find? key = some l.lead.length := by
    rw [text_eq, nameFront, hkey, List.append_assoc, List.append_assoc]
    exact Bytes.find?_of_clear (hclear _)
  rw [Reached, colon?, hfind]
  simp only [Option.bind_eq_bind, Option.bind_some]
  rw [← List.length_append, nameFront, hkey]
  refine Bytes.findByte?_of_eq (l.hole.after.not_mem rfl)
    (l.hole.value.before.bytes ++ Byte.quote :: (l.id.bytes ++ Byte.quote :: l.back)) ?_
  rw [text_eq, nameFront, hkey, List.append_assoc (l.lead ++ key)]

/-- The id that is found is the text of the id. -/
theorem exists_ofGoal_eq :
    ∃ id, l.id.value = .text id ∧ (l.Reached → ofGoal l.text = .ok id) := by
  obtain ⟨id, hid, hbytes⟩ := StringText.exists_value_eq l.unescaped
  refine ⟨id, hid, fun h => ?_⟩
  rw [ofGoal_of_colon? l.text_eq h (l.hole.value.before.not_mem rfl)
    (StringText.quote_not_mem l.unescaped), hbytes, Bytes.toString?_ofString]

/-- **The id of a goal is found whatever its layout.** Every JSON object with exactly one member of
the name of the id has a layout, if the value of the member is a text without escapes. This text is
found if the first colon behind the first `"goalId"` is its own, and it is read where it stands only
then. This is so if the name of the id is spelled without escapes and no such name occurs before
it. -/
theorem ofGoal_text :
    (∀ (before space after : Space) (members : List (Member Tree)) (m : Member Tree)
        (id : StringText),
      members.filter (·.name.value = .text "goalId") = [m] → m.value.value = .string id →
        Byte.backslash ∉ id.bytes →
          ∃ l : Layout, l.tree = ⟨before, .object space members, after⟩) ∧
    ∀ l : Layout, ∃ id, l.id.value = .text id ∧ (l.Reached → ofGoal l.text = .ok id) ∧
      (place l.text = .ok l.span ↔ l.Reached) ∧
      (l.hole.name.bytes = Bytes.ofString "goalId" → (∀ rest, Bytes.Clear key l.lead rest) →
        l.Reached) := by
  refine ⟨fun _ _ _ _ _ _ => exists_tree_eq, fun l => ?_⟩
  obtain ⟨id, hid, hfind⟩ := l.exists_ofGoal_eq
  exact ⟨id, hid, hfind, l.place_text_iff, l.reached_of_clear⟩

end Layout

/-! ## Spellings -/

/-- A member with a name that needs no escapes, and the same space at every token. -/
def plainMember (space : Space) (name : String) (value : Tree) : Member Tree :=
  ⟨space, .ofString EscapeStyle.full_sound name, space, ⟨space, value, space⟩⟩

/-- A goal with the id `g`, whose name is spelled as given, and members beside it. -/
def spelled (space : Space) (left right : List (String × Tree)) (name : StringText)
    (hname : name.value = .text "goalId")
    (hothers : ∀ m ∈ left ++ right, isVerbatim (Bytes.ofString m.1) = true ∧ m.1 ≠ "goalId") :
    Layout where
  before := space
  after := space
  space := space
  left := left.map fun m => plainMember space m.1 m.2
  hole := ⟨space, name, space, ⟨space, (), space⟩⟩
  right := right.map fun m => plainMember space m.1 m.2
  id := .ofString EscapeStyle.full_sound "g"
  named := hname
  single := by
    rw [← List.map_append, List.forall_mem_map]
    intro m hm
    obtain ⟨hverbatim, hne⟩ := hothers m hm
    exact StringText.value_ofString_ne EscapeStyle.full_sound hverbatim hne
  unescaped := by decide

/-- The goal with the id `g`, beside an array and an object that mention ids, with space at every
token. -/
def spacious : Layout :=
  spelled Splice.blank [("a", .array .none [⟨.none, .ofString "goalId", .none⟩])]
    [("b", .object .none [plainMember .none "goalId" (.ofString "x")])]
    (.ofString EscapeStyle.full_sound "goalId") Splice.value_goalId (by decide)

/-- A name of an id that is mentioned as a text does no harm if the next colon is the one of the
id. -/
theorem ofGoal_text_spacious :
    spacious.Reached ∧ ofGoal spacious.text = .ok "g" := by
  have hreached : spacious.Reached := by
    rw [Layout.Reached]
    decide
  obtain ⟨id, hid, hfind, _⟩ := Layout.ofGoal_text.2 spacious
  obtain rfl : id = "g" := by
    have hvalue : spacious.id.value = .text "g" :=
      StringText.value_ofString EscapeStyle.full_sound (by decide)
    exact StringValue.text.inj (hid.symm.trans hvalue)
  exact ⟨hreached, hfind hreached⟩

/-- An id inside a member, or a text that is the name of the id, can hide the id behind it, and
behind a name with an escape there is no id. -/
theorem ofGoal_of_spellings :
    (∃ l : Layout,
      l.text = Bytes.ofString "\x7b\"a\":\x7b\"goalId\":\"x\"\x7d,\"goalId\":\"g\"\x7d" ∧
      l.id.value = .text "g" ∧ ofGoal l.text = .ok "x") ∧
    (∃ l : Layout,
      l.text = Bytes.ofString "\x7b\"a\":\"goalId\",\"b\":\"x\",\"goalId\":\"g\"\x7d" ∧
      l.id.value = .text "g" ∧ ofGoal l.text = .ok "x") ∧
    ∃ l : Layout, l.text = Bytes.ofString "\x7b\"goal\\u0049d\":\"g\"\x7d" ∧
      l.id.value = .text "g" ∧ ofGoal l.text = .error .fieldNotFound := by
  have hid : (StringText.ofString EscapeStyle.full_sound "g").value = .text "g" :=
    StringText.value_ofString EscapeStyle.full_sound (by decide)
  exact ⟨⟨spelled .none [("a", .object .none [plainMember .none "goalId" (.ofString "x")])] []
      _ Splice.value_goalId (by decide), by decide, hid, ofGoal_of_place rfl rfl⟩,
    ⟨spelled .none [("a", .ofString "goalId"), ("b", .ofString "x")] [] _ Splice.value_goalId
      (by decide), by decide, hid, ofGoal_of_place rfl rfl⟩,
    ⟨spelled .none [] [] _ Splice.value_escapedGoalId (by decide), by decide, hid, rfl⟩⟩

end GoalId

end GoalProgress
