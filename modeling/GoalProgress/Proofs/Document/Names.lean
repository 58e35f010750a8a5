import GoalProgress.Proofs.Document
import GoalProgress.Proofs.Scan.Tree

/-!
# Reserved names and the members of a value

The search for reserved names passes over everything in a JSON text but the names of members, at any
depth and with any space around them. It finds the first of them that is reserved.

## Main definitions

* `Document.Declares`: bytes in which the search sees the given names.
-/
namespace GoalProgress.Document

open Json

/-! ## What is passed over -/

theorem firstReserved?_inert {bs : Bytes} (h : ∀ b ∈ bs, Scan.isInert b = true) (rest : Bytes) :
    firstReserved? (bs ++ rest) = firstReserved? rest := by
  induction bs with
  | nil => rfl
  | cons b bs ih =>
    have hb := h b List.mem_cons_self
    simp only [Scan.isInert, Bool.and_eq_true, bne_iff_ne] at hb
    obtain ⟨⟨⟨⟨⟨hq, hs⟩, _⟩, _⟩, _⟩, _⟩ := hb
    rw [List.cons_append, firstReserved?, reservedFrom?_cons hq, reservedFrom?_eq hs,
      ih fun x hx => h x (List.mem_cons_of_mem b hx)]

theorem firstReserved?_cons {b : UInt8} (hq : b ≠ Byte.quote) (hs : b ≠ Byte.backslash)
    (rest : Bytes) : firstReserved? (b :: rest) = firstReserved? rest := by
  rw [firstReserved?, reservedFrom?_cons hq, reservedFrom?_eq hs]

/-! ## Space -/

theorem isBlank_of_isSpace {b : UInt8} (h : isSpace b = true) : Byte.isBlank b = true := by
  simp only [isSpace, Byte.isBlank, Bool.or_eq_true, beq_iff_eq] at h ⊢
  rcases h with ((h | h) | h) | h <;> simp [h]

theorem firstInk?_space (space : Space) (rest : Bytes) :
    Bytes.firstInk? (space.bytes ++ rest) = Bytes.firstInk? rest := by
  have hnone : Bytes.firstInk? space.bytes = none := by
    rw [Bytes.firstInk?, List.find?_eq_none]
    intro b hb
    rw [isBlank_of_isSpace (space.valid b hb)]
    exact Bool.false_ne_true
  rw [Bytes.firstInk?, List.find?_append]
  rw [Bytes.firstInk?] at hnone
  rw [hnone]
  rfl

/-! ## What may follow a value -/

/-- What may follow a value: something that may follow a string literal without making it a name. -/
structure Ends (rest : Bytes) : Prop where
  delimited : Delimited rest
  noColon : rest.firstInk? ≠ some Byte.colon

theorem Ends.nil : Ends [] := ⟨nofun, nofun⟩

theorem Ends.cons {b : UInt8} (hb : b ∈ [Byte.comma, Byte.closeBracket, Byte.closeBrace])
    (rest : Bytes) : Ends (b :: rest) := by
  simp only [List.mem_cons, List.not_mem_nil, or_false] at hb
  have hne (c : UInt8) (hc : c ≠ Byte.colon) : some c ≠ some Byte.colon := by
    rwa [ne_eq, Option.some.injEq]
  rcases hb with rfl | rfl | rfl
  all_goals exact ⟨.cons rfl _, hne _ (by decide)⟩

theorem Ends.space (space : Space) {rest : Bytes} (h : Ends rest) : Ends (space.bytes ++ rest) := by
  refine ⟨delimited_space space h.delimited, ?_⟩
  rw [firstInk?_space]
  exact h.noColon

/-- Where a value may end after these bytes, the search sees the given names in them. -/
def Declares (bs : Bytes) (names : List Bytes) : Prop :=
  ∀ rest, Ends rest →
    firstReserved? (bs ++ rest) = (names.findSome? named?).or (firstReserved? rest)

namespace Declares

theorem inert {bs : Bytes} (h : ∀ b ∈ bs, Scan.isInert b = true) : Declares bs [] := by
  intro rest _
  rw [firstReserved?_inert h]
  rfl

theorem literal (s : StringText) : Declares s.quoted [] := by
  intro rest hrest
  rw [StringText.quoted, List.cons_append, List.append_assoc, List.singleton_append,
    firstReserved?_literal s.valid.enclosed hrest.delimited, if_neg hrest.noColon]
  rfl

theorem padded {bs : Bytes} {names : List Bytes} (h : Declares bs names) (before after : Space) :
    Declares (before.bytes ++ bs ++ after.bytes) names := by
  intro rest hrest
  rw [List.append_assoc, List.append_assoc, firstReserved?_inert before.inert,
    h _ (hrest.space after), firstReserved?_inert after.inert]

/-- A member declares its name first. -/
theorem member {bs : Bytes} {names : List Bytes} (h : Declares bs names) (before after : Space)
    (name : StringText) :
    Declares (before.bytes ++ name.quoted ++ after.bytes ++ Byte.colon :: bs)
      (name.bytes :: names) := by
  intro rest hrest
  have hink : Bytes.firstInk? (after.bytes ++ Byte.colon :: (bs ++ rest)) = some Byte.colon := by
    rw [firstInk?_space]
    rfl
  have hdelimited : Delimited (after.bytes ++ Byte.colon :: (bs ++ rest)) :=
    delimited_space after (.cons rfl _)
  have hbytes : before.bytes ++ name.quoted ++ after.bytes ++ Byte.colon :: bs ++ rest =
      before.bytes ++ Byte.quote :: (name.bytes ++ Byte.quote ::
        (after.bytes ++ Byte.colon :: (bs ++ rest))) := by
    simp [StringText.quoted]
  rw [hbytes, firstReserved?_inert before.inert,
    firstReserved?_literal name.valid.enclosed hdelimited, if_pos hink,
    firstReserved?_inert after.inert, firstReserved?_cons (by decide) (by decide), h rest hrest,
    List.findSome?_cons]
  cases named? name.bytes <;> rfl

/-- What is joined declares the names of its parts in order. -/
theorem joined {α : Type} {as : List α} {text : α → Bytes} {names : α → List Bytes}
    (h : ∀ a ∈ as, Declares (text a) (names a)) :
    Declares (Json.joined (as.map text)) (as.flatMap names) := by
  have hcommas (as : List α) (h : ∀ a ∈ as, Declares (text a) (names a)) (rest : Bytes)
      (hrest : Ends rest) : Ends (as.flatMap (fun a => Byte.comma :: text a) ++ rest) ∧
      firstReserved? (as.flatMap (fun a => Byte.comma :: text a) ++ rest) =
        ((as.flatMap names).findSome? named?).or (firstReserved? rest) := by
    induction as with
    | nil => exact ⟨hrest, rfl⟩
    | cons a as ih =>
      obtain ⟨hends, hfirst⟩ := ih fun x hx => h x (List.mem_cons_of_mem a hx)
      rw [List.flatMap_cons, List.append_assoc, List.cons_append]
      refine ⟨.cons List.mem_cons_self _, ?_⟩
      rw [firstReserved?_cons (by decide) (by decide), h a List.mem_cons_self _ hends, hfirst,
        List.flatMap_cons, List.findSome?_append, Option.or_assoc]
  intro rest hrest
  cases as with
  | nil => rfl
  | cons a as =>
    obtain ⟨hends, hfirst⟩ :=
      hcommas as (fun x hx => h x (List.mem_cons_of_mem a hx)) rest hrest
    rw [List.map_cons, joined_cons, List.flatMap_map, List.append_assoc,
      h a List.mem_cons_self _ hends, hfirst, List.flatMap_cons, List.findSome?_append,
      Option.or_assoc]

/-- Brackets or braces around something declare the same names. -/
theorem enclosed {bs : Bytes} {names : List Bytes} (h : Declares bs names) (space : Space)
    {opening closing : UInt8} (ho : opening ≠ Byte.quote ∧ opening ≠ Byte.backslash)
    (hc : closing ∈ [Byte.closeBracket, Byte.closeBrace]) :
    Declares (opening :: (space.bytes ++ bs ++ [closing])) names := by
  intro rest hrest
  have hclosing : closing ≠ Byte.quote ∧ closing ≠ Byte.backslash := by
    simp only [List.mem_cons, List.not_mem_nil, or_false] at hc
    rcases hc with rfl | rfl <;> decide
  have hbytes : opening :: (space.bytes ++ bs ++ [closing]) ++ rest =
      opening :: (space.bytes ++ (bs ++ closing :: rest)) := by
    simp
  rw [hbytes, firstReserved?_cons ho.1 ho.2, firstReserved?_inert space.inert,
    h _ (.cons (List.mem_cons_of_mem _ hc) rest), firstReserved?_cons hclosing.1 hclosing.2]

/-- **The search sees the names of all members of a value, and nothing else.** -/
theorem tree (t : Tree) : Declares t.text t.names := by
  induction t with
  | null => rw [Tree.text, Tree.names]; exact .inert (List.all_eq_true.1 rfl)
  | boolean b =>
    cases b <;> rw [Tree.text, Tree.names] <;> exact .inert (List.all_eq_true.1 rfl)
  | number n => rw [Tree.text, Tree.names]; exact .inert n.valid.inert
  | string s => rw [Tree.text, Tree.names]; exact .literal s
  | array space items ih =>
    rw [Tree.text, Tree.names, Tree.itemTexts_eq_map, Tree.itemNames_eq_flatMap]
    refine .enclosed (.joined ?_) space (by decide) (by decide)
    intro p hp
    exact (ih p hp).padded p.before p.after
  | object space members ih =>
    rw [Tree.text, Tree.names, Tree.memberTexts_eq_map, Tree.memberNames_eq_flatMap]
    refine .enclosed (.joined ?_) space (by decide) (by decide)
    intro m hm
    exact ((ih m hm).padded m.value.before m.value.after).member m.before m.after m.name

end Declares

/-- **In a JSON text the search finds the first reserved name of a member, at any depth.** -/
theorem firstReserved?_text (p : Padded Tree) :
    firstReserved? (Tree.paddedText p) = p.value.names.findSome? named? := by
  have h := (Declares.tree p.value).padded p.before p.after [] .nil
  rw [List.append_nil] at h
  rw [Tree.paddedText, h]
  exact Option.or_none

end GoalProgress.Document
