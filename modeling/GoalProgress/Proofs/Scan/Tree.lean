import GoalProgress.Proofs.Json.Tree
import GoalProgress.Proofs.Scan.Span

/-!
# JSON texts are balanced

Outside string literals, the brackets and braces of a JSON text are those of its arrays and objects,
and these are closed. Numbers, words and space have none.
-/
namespace GoalProgress.Json

open Scan

theorem Space.inert (space : Space) : ∀ b ∈ space.bytes, isInert b = true := by
  intro b hb
  have h := space.valid b hb
  simp only [isSpace, Bool.or_eq_true, beq_iff_eq] at h
  rcases h with ((rfl | rfl) | rfl) | rfl <;> decide

theorem Space.balanced (space : Space) : Balanced space.bytes := .of_inert space.inert

/-- Balanced parts that are joined behind some space. -/
theorem Space.balanced_joined {α : Type} {f : α → Bytes} {as : List α} (space : Space)
    (h : ∀ a ∈ as, Balanced (f a)) : Balanced (space.bytes ++ joined (as.map f)) := by
  refine space.balanced.append (.joined ?_)
  intro part hpart
  obtain ⟨a, ha, rfl⟩ := List.mem_map.1 hpart
  exact h a ha

theorem isInert_of_isDigit {b : UInt8} (h : Byte.isDigit b = true) : isInert b = true := by
  have hne (x : UInt8) (hx : Byte.isDigit x = false) : b ≠ x := by
    rintro rfl
    exact Bool.false_ne_true (hx.symm.trans h)
  simp only [isInert, Bool.and_eq_true, bne_iff_ne]
  exact ⟨⟨⟨⟨⟨hne _ rfl, hne _ rfl⟩, hne _ rfl⟩, hne _ rfl⟩, hne _ rfl⟩, hne _ rfl⟩

theorem IsNumberText.inert {bs : Bytes} (h : IsNumberText bs) : ∀ b ∈ bs, isInert b = true :=
  h.forall_mem (fun _ => isInert_of_isDigit) (List.all_eq_true.1 rfl)

theorem StringText.balanced (s : StringText) : Balanced s.quoted := .literal s.valid.enclosed

namespace Tree

theorem balanced_padded {p : Padded Tree} (h : Balanced p.value.text) : Balanced (paddedText p) :=
  (p.before.balanced.append h).append p.after.balanced

theorem balanced_member {m : Member Tree} (h : Balanced m.value.value.text) :
    Balanced (memberText m) :=
  ((m.before.balanced.append m.name.balanced).append m.after.balanced).append
    (.cons rfl (balanced_padded h))

/-- **The text of every value is balanced.** -/
theorem balanced (t : Tree) : Balanced t.text := by
  induction t with
  | null => rw [text]; exact .of_inert (List.all_eq_true.1 rfl)
  | boolean b => cases b <;> rw [text] <;> exact .of_inert (List.all_eq_true.1 rfl)
  | number n => rw [text]; exact .of_inert n.valid.inert
  | string s => rw [text]; exact s.balanced
  | array space items ih =>
    rw [text, itemTexts_eq_map]
    exact .brackets (space.balanced_joined fun p hp => balanced_padded (ih p hp))
  | object space members ih =>
    rw [text, memberTexts_eq_map]
    exact .braces (space.balanced_joined fun m hm => balanced_member (ih m hm))

/-! ## Objects -/

theorem isObject_object (space : Space) (members : List (Member Tree)) :
    IsObject (object space members).text := by
  rw [text, memberTexts_eq_map]
  exact ⟨_, space.balanced_joined fun m _ => balanced_member m.value.value.balanced, rfl⟩

mutual

/-- The outermost objects of a value: the value itself, or those in the items of an array. -/
def outermost : Tree → List Tree
  | .null | .boolean _ | .number _ | .string _ => []
  | .array _ items => itemsOutermost items
  | .object space members => [.object space members]

/-- The outermost objects in the items of an array. -/
def itemsOutermost : List (Padded Tree) → List Tree
  | [] => []
  | ⟨_, t, _⟩ :: items => t.outermost ++ itemsOutermost items

end

@[simp] theorem itemsOutermost_eq_flatMap (items : List (Padded Tree)) :
    itemsOutermost items = items.flatMap fun p => p.value.outermost := by
  induction items with
  | nil => simp [itemsOutermost]
  | cons p items ih => obtain ⟨before, t, after⟩ := p; simp [itemsOutermost, ih]

theorem exists_of_mem_outermost {t o : Tree} (h : o ∈ t.outermost) :
    ∃ space members, o = object space members := by
  induction t with
  | null | boolean | number | string => simp [outermost] at h
  | array space items ih =>
    simp only [outermost, itemsOutermost_eq_flatMap, List.mem_flatMap] at h
    obtain ⟨p, hp, ho⟩ := h
    exact ih p hp ho
  | object space members =>
    simp only [outermost, List.mem_singleton] at h
    exact ⟨space, members, h⟩

theorem outermost_items {items : List (Padded Tree)}
    (h : ∀ p ∈ items, Outermost p.value.text (p.value.outermost.map text)) (space : Space) :
    Outermost (space.bytes ++ joined (items.map paddedText))
      (items.flatMap fun p => p.value.outermost.map text) := by
  refine (Outermost.of_inert space.inert).append (.joined fun p hp => ?_)
  have hpadded := ((Outermost.of_inert p.before.inert).append (h p hp)).append
    (.of_inert p.after.inert)
  rwa [List.append_nil, List.nil_append] at hpadded

/-- **The outermost objects of a text are the texts of those of its value.** -/
theorem outermost_text (t : Tree) : Outermost t.text (t.outermost.map text) := by
  induction t with
  | null => rw [text]; exact .of_inert (List.all_eq_true.1 rfl)
  | boolean b => cases b <;> rw [text] <;> exact .of_inert (List.all_eq_true.1 rfl)
  | number n => rw [text]; exact .of_inert n.valid.inert
  | string s => rw [text]; exact .literal s.valid.enclosed
  | array space items ih =>
    rw [text, itemTexts_eq_map, outermost, itemsOutermost_eq_flatMap, List.map_flatMap]
    exact (outermost_items ih space).brackets
  | object space members => exact .object (isObject_object space members)

/-- **The objects that are found in an array are the outermost ones in its items.** -/
theorem slice_objectSpans_items (space : Space) (items : List (Padded Tree)) :
    (objectSpans (space.bytes ++ joined (items.map paddedText))).map
        (·.slice (space.bytes ++ joined (items.map paddedText))) =
      (items.flatMap fun p => p.value.outermost).map text := by
  rw [List.map_flatMap]
  exact slice_objectSpans (outermost_items (fun p _ => p.value.outermost_text) space)

end Tree

end GoalProgress.Json
