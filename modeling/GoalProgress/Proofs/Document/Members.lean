import GoalProgress.Proofs.Definition.Check

/-!
# The check of a JSON text

What the check says of a JSON text is decided by two things: whether the text has a closing brace,
and whether some object in it, at any depth, has a member with a reserved name. The search for
reserved names reads bytes, but on a JSON text it comes to exactly this, however the text is spaced
and whatever its strings contain.

## Main definitions

* `Json.Tree.Within`: a value inside a value.
* `Document.reservedNames`: the names that no member may be spelled as.
-/
namespace GoalProgress

open Json

namespace Json.Tree

/-- A value inside another one, at any depth: the other one itself, or inside an item of an array or
the value of a member. -/
inductive Within (part : Tree) : Tree → Prop
  | self : Within part part
  | item {space : Space} {items : List (Padded Tree)} {p : Padded Tree} (hp : p ∈ items)
      (h : Within part p.value) : Within part (.array space items)
  | member {space : Space} {members : List (Member Tree)} {m : Member Tree} (hm : m ∈ members)
      (h : Within part m.value.value) : Within part (.object space members)

/-- Some object inside a value has a member with a name that is spelled in a given way. -/
def HasName (t : Tree) (name : Bytes) : Prop :=
  ∃ space members, Within (.object space members) t ∧ ∃ m ∈ members, m.name.bytes = name

theorem HasName.mem_names {part t : Tree} (h : Within part t) {name : Bytes}
    (hname : name ∈ part.names) : name ∈ t.names := by
  induction h with
  | self => exact hname
  | item hp _ ih =>
    simp only [names, itemNames_eq_flatMap, List.mem_flatMap]
    exact ⟨_, hp, ih⟩
  | member hm _ ih =>
    simp only [names, memberNames_eq_flatMap, List.mem_flatMap, List.mem_cons]
    exact ⟨_, hm, .inr ih⟩

/-- **The names of a value are those of the members of all objects inside it.** -/
theorem mem_names_iff (t : Tree) (name : Bytes) : name ∈ t.names ↔ t.HasName name := by
  constructor
  · intro h
    induction t with
    | null | boolean | number | string => simp [names] at h
    | array space items ih =>
      simp only [names, itemNames_eq_flatMap, List.mem_flatMap] at h
      obtain ⟨p, hp, hname⟩ := h
      obtain ⟨inner, members, hwithin, hm⟩ := ih p hp hname
      exact ⟨inner, members, .item hp hwithin, hm⟩
    | object space members ih =>
      simp only [names, memberNames_eq_flatMap, List.mem_flatMap, List.mem_cons] at h
      obtain ⟨m, hm, rfl | hname⟩ := h
      · exact ⟨space, members, .self, m, hm, rfl⟩
      · obtain ⟨inner, members', hwithin, hm'⟩ := ih m hm hname
        exact ⟨inner, members', .member hm hwithin, hm'⟩
  · rintro ⟨space, members, hwithin, m, hm, rfl⟩
    refine HasName.mem_names hwithin ?_
    simp only [names, memberNames_eq_flatMap, List.mem_flatMap, List.mem_cons]
    exact ⟨m, hm, .inl rfl⟩

end Json.Tree

namespace Document

/-- The names that no member of a cached document may be spelled as. -/
def reservedNames : List Bytes :=
  ["progress", "status", "completedAt", "claimedAt"].map Bytes.ofString

theorem named?_eq_none_iff (name : Bytes) : named? name = none ↔ name ∉ reservedNames := by
  have hnames : reservedNames = ReservedKey.all.map fun k => Bytes.ofString k.name := rfl
  rw [named?, List.find?_eq_none, hnames, List.mem_map]
  constructor
  · rintro h ⟨k, hk, rfl⟩
    exact h k hk (beq_self_eq_true _)
  · intro h k hk hname
    exact h ⟨k, hk, beq_iff_eq.1 hname⟩

/-- The fault of a JSON text: a missing brace counts first, then the first member with a reserved
name. -/
theorem fault?_text (p : Padded Tree) :
    fault? (Tree.paddedText p) =
      if Byte.closeBrace ∈ Tree.paddedText p then
        (p.value.names.findSome? named?).map .reservedKey
      else some .missingBrace := by
  have hfirst := firstReserved?_text p
  rw [firstReserved?] at hfirst
  rw [fault?, hfirst]
  by_cases h : Byte.closeBrace ∈ Tree.paddedText p <;> simp [Bytes.lastByte?_eq_none_iff, h]

theorem fault?_text_eq_none_iff (p : Padded Tree) :
    fault? (Tree.paddedText p) = none ↔
      Byte.closeBrace ∈ Tree.paddedText p ∧ ∀ name ∈ reservedNames, ¬ p.value.HasName name := by
  rw [fault?_text]
  by_cases h : Byte.closeBrace ∈ Tree.paddedText p
  · simp only [h, if_true, Option.map_eq_none_iff, List.findSome?_eq_none_iff, true_and,
      named?_eq_none_iff, Tree.mem_names_iff]
    exact ⟨fun hnames name hr hn => hnames name hn hr, fun hnames name hn hr => hnames name hr hn⟩
  · simp [h]

/-- **The check is exact on JSON.** It refuses a JSON text exactly if the text has no closing brace,
or an object in it, at any depth, has a member that is spelled as a reserved name; the error then
names the document. Every other JSON text passes. -/
theorem check_json (id : String) (p : Padded Tree) :
    ((∃ fault, check id (Tree.paddedText p) = .error (.invalidDocument id fault)) ↔
      Byte.closeBrace ∉ Tree.paddedText p ∨ ∃ name ∈ reservedNames, p.value.HasName name) ∧
    (check id (Tree.paddedText p) = .ok () ↔
      Byte.closeBrace ∈ Tree.paddedText p ∧ ∀ name ∈ reservedNames, ¬ p.value.HasName name) := by
  refine ⟨?_, (check_eq_ok_iff id _).trans (fault?_text_eq_none_iff p)⟩
  rw [check_fails_iff, ne_eq, fault?_text_eq_none_iff]
  simp only [Classical.not_and_iff_not_or_not, Classical.not_forall, Classical.not_not, exists_prop]

/-- Reserved names are let pass as values, and behind an escaped quote even before a colon. -/
example : fault? (Bytes.ofString "\x7b\"a\\\"status\" : [\"progress\", \"\\\"status\\\":\"]\x7d") =
    none := by decide

end Document

end GoalProgress
