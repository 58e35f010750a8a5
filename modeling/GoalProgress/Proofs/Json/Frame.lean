import GoalProgress.Proofs.Json.Content

/-!
# An object around one of its values

The bytes around the value of a member are the same for every value, and so are the other members.

## Main definitions

* `Json.Frame`: an object around the value of one of its members.
* `Json.Frame.fill`: the object with a value.
-/
namespace GoalProgress.Json

/-- An object around the value of one of its members. -/
structure Frame where
  /-- The space around the object. -/
  before : Space
  after : Space
  /-- The space behind its opening brace. -/
  space : Space
  left : List (Member Tree)
  /-- The member without its value. -/
  hole : Member Unit
  right : List (Member Tree)

theorem joined_around (left : List Bytes) (part : Bytes) (right : List Bytes) :
    joined (left ++ part :: right) =
      left.flatMap (· ++ [Byte.comma]) ++ part ++ right.flatMap (Byte.comma :: ·) := by
  induction left with
  | nil => exact joined_cons part right
  | cons first left ih =>
    rw [List.cons_append, joined_cons_of_ne_nil _ (by simp), ih]
    simp

namespace Frame

variable (f : Frame)

/-- The member with a value. -/
def member (t : Tree) : Member Tree :=
  ⟨f.hole.before, f.hole.name, f.hole.after, f.hole.value.before, t, f.hole.value.after⟩

/-- The object with a value for the member. -/
def fill (t : Tree) : Padded Tree :=
  ⟨f.before, .object f.space (f.left ++ f.member t :: f.right), f.after⟩

/-- The text before the name of the member. -/
def lead : Bytes :=
  f.before.bytes ++ Byte.openBrace :: (f.space.bytes ++
    (f.left.map Tree.memberText).flatMap (· ++ [Byte.comma]) ++ f.hole.before.bytes)

/-- The text before the value. -/
def front : Bytes :=
  f.lead ++ f.hole.name.quoted ++ f.hole.after.bytes ++ Byte.colon :: f.hole.value.before.bytes

/-- The text behind the value. -/
def back : Bytes :=
  f.hole.value.after.bytes ++ (f.right.map Tree.memberText).flatMap (Byte.comma :: ·) ++
    Byte.closeBrace :: f.after.bytes

theorem text_fill (t : Tree) : Tree.paddedText (f.fill t) = f.front ++ t.text ++ f.back := by
  rw [Tree.paddedText, fill, Tree.text, Tree.memberTexts_eq_map, List.map_append, List.map_cons,
    joined_around, front, lead, back, member, Tree.memberText, Tree.paddedText]
  simp

theorem content_fill (t : Tree) : (f.fill t).value.content =
    .object (f.left.map Tree.memberContent ++
      (f.hole.name.value, t.content) :: f.right.map Tree.memberContent) := by
  rw [fill, Tree.content_object, List.map_append, List.map_cons]
  rfl

/-- Every object with exactly one member of a name is a frame around the value of this member. -/
theorem exists_fill_eq (before space after : Space) {members : List (Member Tree)}
    {m : Member Tree} {name : String}
    (hsingle : members.filter (·.name.value = .text name) = [m]) :
    ∃ f : Frame, f.fill m.value.value = ⟨before, .object space members, after⟩ ∧
      f.hole.name.value = .text name ∧ ∀ x ∈ f.left ++ f.right, x.name.value ≠ .text name := by
  obtain ⟨left, right, rfl, hleft, hm, hright⟩ := List.filter_eq_cons_iff.1 hsingle
  rw [List.filter_eq_nil_iff] at hright
  refine ⟨{
    before, after, space, left, right
    hole := ⟨m.before, m.name, m.after, ⟨m.value.before, (), m.value.after⟩⟩ }, rfl,
    of_decide_eq_true hm, ?_⟩
  intro x hx
  rcases List.mem_append.1 hx with hx | hx
  · exact of_decide_eq_false (Bool.eq_false_iff.2 (hleft x hx))
  · exact of_decide_eq_false (Bool.eq_false_iff.2 (hright x hx))

end Frame

end GoalProgress.Json
