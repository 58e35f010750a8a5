import GoalProgress.Proofs.Json.Compact
import GoalProgress.Proofs.Scan.Tree

/-!
# Where the arrays of a JSON text start

An opening bracket outside string literals opens an array of the text. The bytes around this array
are a frame for any other value: with that value in its place they are a JSON text again.

## Main definitions

* `Scan.OpensAt`: an opening bracket outside string literals.
* `Json.Surrounds`: the bytes around a value in a JSON text.
-/
namespace GoalProgress

/-! ## Opening brackets -/

namespace Scan

theorem Silent.isStructural_after {s : Literal} {before rest : Bytes} {b : UInt8}
    (h : Silent s (before ++ b :: rest)) : (s.after before).isStructural b = false := by
  induction before generalizing s with
  | nil => exact h.1
  | cons x before ih => exact ih h.2

/-- The bytes are split at an opening bracket that is outside string literals. -/
structure OpensAt (bs before rest : Bytes) : Prop where
  eq : bs = before ++ Byte.openBracket :: rest
  outside : Literal.outside.after before = .outside

namespace OpensAt

variable {bs cs before rest : Bytes}

theorem mem (h : OpensAt bs before rest) : Byte.openBracket ∈ bs := by
  rw [h.eq]
  exact List.mem_append_right _ List.mem_cons_self

/-- Bytes in which no bracket is structure. -/
def Never (bs : Bytes) : Prop := ∀ before rest, ¬ OpensAt bs before rest

theorem never_of_not_mem (h : Byte.openBracket ∉ bs) : Never bs := fun _ _ hopen => h hopen.mem

theorem never_of_inert (h : ∀ b ∈ bs, isInert b = true) : Never bs :=
  never_of_not_mem fun hmem => Bool.false_ne_true (h _ hmem)

theorem never_of_silent (h : Silent .outside bs) : Never bs := by
  intro before rest hopen
  rw [hopen.eq] at h
  have hstructural := h.isStructural_after
  rw [hopen.outside] at hstructural
  cases hstructural

/-- In bytes behind balanced ones, the bracket is in the ones or in the others. -/
theorem append_cases (h : OpensAt (bs ++ cs) before rest) (hbs : Balanced bs) :
    (∃ rest', OpensAt bs before rest' ∧ rest = rest' ++ cs) ∨
      ∃ before', OpensAt cs before' rest ∧ before = bs ++ before' := by
  rcases List.append_eq_append_iff.1 h.eq with ⟨before', rfl, hcs⟩ | ⟨rest', hbefore, hrest⟩
  · refine .inr ⟨before', ⟨hcs, ?_⟩, rfl⟩
    have hout := h.outside
    rwa [Literal.after_append, hbs.after_eq] at hout
  · cases rest' with
    | nil =>
      refine .inr ⟨[], ⟨hrest.symm, rfl⟩, ?_⟩
      rw [hbefore]
      simp
    | cons b rest' =>
      rw [List.cons_append, List.cons.injEq] at hrest
      refine .inl ⟨rest', ⟨?_, h.outside⟩, hrest.2⟩
      rw [hbefore, hrest.1]

theorem behind (h : OpensAt (bs ++ cs) before rest) (hbs : Balanced bs) (hnever : Never bs) :
    ∃ before', OpensAt cs before' rest ∧ before = bs ++ before' := by
  rcases h.append_cases hbs with ⟨_, hopen, _⟩ | hbehind
  · exact absurd hopen (hnever _ _)
  · exact hbehind

theorem ahead (h : OpensAt (bs ++ cs) before rest) (hbs : Balanced bs) (hnever : Never cs) :
    ∃ rest', OpensAt bs before rest' ∧ rest = rest' ++ cs := by
  rcases h.append_cases hbs with hahead | ⟨_, hopen, _⟩
  · exact hahead
  · exact absurd hopen (hnever _ _)

theorem tail {x b : UInt8} (h : OpensAt (x :: bs) (b :: before) rest)
    (hx : Literal.outside.next x = .outside) : OpensAt bs before rest := by
  have heq := h.eq
  rw [List.cons_append, List.cons.injEq] at heq
  obtain ⟨rfl, hbs⟩ := heq
  have hout := h.outside
  rw [Literal.after_cons, hx] at hout
  exact ⟨hbs, hout⟩

end OpensAt

end Scan

open Scan

namespace Json

/-- Between joined parts, a bracket is in one of them, and this part can be exchanged. -/
theorem exists_part_of_opensAt {α : Type} {f : α → Bytes} {as : List α} {before rest : Bytes}
    (has : ∀ a ∈ as, Balanced (f a)) (h : OpensAt (joined (as.map f)) before rest) :
    ∃ left a right, as = left ++ a :: right ∧ ∃ pre post,
      (∀ bs, joined (left.map f ++ bs :: right.map f) = pre ++ bs ++ post) ∧
      ∃ before' rest', OpensAt (f a) before' rest' ∧ before = pre ++ before' ∧
        rest = rest' ++ post := by
  induction as generalizing before with
  | nil => exact absurd h.mem List.not_mem_nil
  | cons a as ih =>
    rw [List.forall_mem_cons] at has
    by_cases hlast : as.map f = []
    · rw [List.map_cons, hlast, joined_cons, List.flatMap_nil, List.append_nil] at h
      refine ⟨[], a, as, rfl, [], [], ?_, before, rest, h, rfl, (List.append_nil rest).symm⟩
      intro bs
      simp [hlast, joined_cons]
    · rw [List.map_cons, joined_cons_of_ne_nil _ hlast] at h
      rcases h.append_cases has.1 with ⟨rest', hopen, rfl⟩ | ⟨behind, hopen, rfl⟩
      · exact ⟨[], a, as, rfl, [], _, fun bs => joined_cons_of_ne_nil bs hlast, before, rest',
          hopen, rfl, rfl⟩
      · have hcomma : ∀ b ∈ [Byte.comma], isInert b = true := List.all_eq_true.1 rfl
        have hsingle : OpensAt ([Byte.comma] ++ joined (as.map f)) behind rest := hopen
        obtain ⟨behind', hopen', rfl⟩ := hsingle.behind (.of_inert hcomma)
          (OpensAt.never_of_inert hcomma)
        obtain ⟨left, b, right, rfl, pre, post, hjoined, before', rest', hpart, rfl, rfl⟩ :=
            ih has.2 hopen'
        refine ⟨a :: left, b, right, rfl, f a ++ Byte.comma :: pre, post, ?_, before', rest',
          hpart, by simp, rfl⟩
        intro bs
        rw [List.map_cons, List.cons_append, joined_cons_of_ne_nil _ (by simp), hjoined]
        simp

/-- The same for parts that stand between an opening and a closing byte, behind some space. -/
theorem exists_part_of_opensAt_between {α : Type} {f : α → Bytes} {as : List α} {space : Space}
    {x y b : UInt8} {before rest : Bytes} (has : ∀ a ∈ as, Balanced (f a))
    (hx : Literal.outside.next x = .outside) (hy : y ≠ Byte.openBracket)
    (h : OpensAt (x :: (space.bytes ++ joined (as.map f) ++ [y])) (b :: before) rest) :
    ∃ left a right, as = left ++ a :: right ∧ ∃ pre post,
      (∀ bs, x :: (space.bytes ++ joined (left.map f ++ bs :: right.map f) ++ [y]) =
        pre ++ bs ++ post) ∧
      ∃ before' rest', OpensAt (f a) before' rest' ∧ b :: before = pre ++ before' ∧
        rest = rest' ++ post := by
  have hclose : OpensAt.Never [y] :=
    OpensAt.never_of_not_mem fun hmem => hy (List.mem_singleton.1 hmem).symm
  have hb : x = b := (List.cons.inj h.eq).1
  obtain ⟨inside, hinside, rfl⟩ := (h.tail hx).ahead (space.balanced_joined has) hclose
  obtain ⟨behind, hbehind, rfl⟩ :=
    hinside.behind space.balanced (OpensAt.never_of_inert space.inert)
  obtain ⟨left, a, right, rfl, pre, post, hjoined, before', rest', hpart, rfl, rfl⟩ :=
    exists_part_of_opensAt has hbehind
  refine ⟨left, a, right, rfl, x :: (space.bytes ++ pre), post ++ [y], ?_, before', rest', hpart,
    by simp [hb], by simp⟩
  intro bs
  rw [hjoined]
  simp

/-! ## Frames -/

/-- Bytes around a value in a JSON text: with any value between them they are the text of a
value. -/
def Surrounds (before after : Bytes) : Prop :=
  ∀ t : Tree, ∃ whole : Tree, whole.text = before ++ t.text ++ after

/-- A frame of a frame. -/
theorem Surrounds.trans {pre post before after : Bytes} (h : Surrounds pre post)
    (h' : Surrounds before after) : Surrounds (pre ++ before) (after ++ post) := by
  intro t
  obtain ⟨inner, hinner⟩ := h' t
  obtain ⟨whole, hwhole⟩ := h inner
  refine ⟨whole, ?_⟩
  rw [hwhole, hinner]
  simp

namespace Tree

/-- The bytes around an item of an array. -/
theorem surrounds_item {space : Space} {left right : List (Padded Tree)} {pre post : Bytes}
    (h : ∀ bs, Byte.openBracket :: (space.bytes ++
      joined (left.map paddedText ++ bs :: right.map paddedText) ++ [Byte.closeBracket]) =
        pre ++ bs ++ post) (p : Padded Tree) :
    Surrounds (pre ++ p.before.bytes) (p.after.bytes ++ post) := by
  intro t
  refine ⟨array space (left ++ ⟨p.before, t, p.after⟩ :: right), ?_⟩
  rw [text, itemTexts_eq_map, List.map_append, List.map_cons, h, paddedText]
  simp

/-- The bytes around the value of a member. -/
theorem surrounds_member {space : Space} {left right : List (Member Tree)} {pre post : Bytes}
    (h : ∀ bs, Byte.openBrace :: (space.bytes ++
      joined (left.map memberText ++ bs :: right.map memberText) ++ [Byte.closeBrace]) =
        pre ++ bs ++ post) (m : Member Tree) :
    Surrounds (pre ++ (m.before.bytes ++ m.name.quoted ++ m.after.bytes ++
      Byte.colon :: m.value.before.bytes)) (m.value.after.bytes ++ post) := by
  intro t
  refine ⟨object space (left ++
    ⟨m.before, m.name, m.after, m.value.before, t, m.value.after⟩ :: right), ?_⟩
  rw [text, memberTexts_eq_map, List.map_append, List.map_cons, h, memberText, paddedText]
  simp

/-- A bracket in a value with space around it is in the value. -/
theorem opensAt_padded {p : Padded Tree} {before rest : Bytes}
    (h : OpensAt (paddedText p) before rest) :
    ∃ before' rest', OpensAt p.value.text before' rest' ∧ before = p.before.bytes ++ before' ∧
      rest = rest' ++ p.after.bytes := by
  rw [paddedText] at h
  obtain ⟨rest', hahead, rfl⟩ :=
    h.ahead (p.before.balanced.append p.value.balanced) (OpensAt.never_of_inert p.after.inert)
  obtain ⟨before', hvalue, rfl⟩ :=
    hahead.behind p.before.balanced (OpensAt.never_of_inert p.before.inert)
  exact ⟨before', rest', hvalue, rfl, rfl⟩

/-- A bracket in a member is in its value, for no name has any that counts. -/
theorem opensAt_member {m : Member Tree} {before rest : Bytes}
    (h : OpensAt (memberText m) before rest) :
    ∃ before', OpensAt (paddedText m.value) before' rest ∧
      before = m.before.bytes ++ m.name.quoted ++ m.after.bytes ++ Byte.colon :: before' := by
  have hcolon : ∀ b ∈ [Byte.colon], isInert b = true := List.all_eq_true.1 rfl
  rw [memberText, List.append_assoc, List.append_assoc] at h
  obtain ⟨behind, hname, rfl⟩ :=
    h.behind m.before.balanced (OpensAt.never_of_inert m.before.inert)
  obtain ⟨behind, hafter, rfl⟩ :=
    hname.behind m.name.balanced (OpensAt.never_of_silent (silent_literal m.name.valid.enclosed))
  obtain ⟨behind, hcolon', rfl⟩ :=
    hafter.behind m.after.balanced (OpensAt.never_of_inert m.after.inert)
  have hsplit : OpensAt ([Byte.colon] ++ paddedText m.value) behind rest := hcolon'
  obtain ⟨before', hvalue, rfl⟩ := hsplit.behind (.of_inert hcolon) (OpensAt.never_of_inert hcolon)
  exact ⟨before', hvalue, by simp⟩

/-- **An opening bracket outside string literals opens an array**, and any other value can stand in
the place of this array. -/
theorem exists_array_of_opensAt {t : Tree} {before rest : Bytes} (h : OpensAt t.text before rest) :
    ∃ space items after, Byte.openBracket :: rest = (array space items).text ++ after ∧
      Surrounds before after := by
  induction t generalizing before rest with
  | null =>
    rw [text] at h
    exact absurd h (OpensAt.never_of_inert (List.all_eq_true.1 rfl) _ _)
  | boolean b =>
    cases b <;> rw [text] at h <;>
      exact absurd h (OpensAt.never_of_inert (List.all_eq_true.1 rfl) _ _)
  | number n =>
    rw [text] at h
    exact absurd h (OpensAt.never_of_inert n.valid.inert _ _)
  | string s =>
    rw [text] at h
    exact absurd h (OpensAt.never_of_silent (silent_literal s.valid.enclosed) _ _)
  | array space items ih =>
    cases before with
    | nil => exact ⟨space, items, [], by rw [h.eq]; simp, fun t => ⟨t, by simp⟩⟩
    | cons b before =>
      rw [text, itemTexts_eq_map] at h
      obtain ⟨left, p, right, rfl, pre, post, hparts, before', rest', hp, hbefore, rfl⟩ :=
        exists_part_of_opensAt_between (fun p _ => balanced_padded p.value.balanced) rfl
          (by decide) h
      obtain ⟨before', rest', hvalue, rfl, rfl⟩ := opensAt_padded hp
      obtain ⟨space', items', after, harray, hsurrounds⟩ := ih p (by simp) hvalue
      refine ⟨space', items', after ++ (p.after.bytes ++ post), ?_, ?_⟩
      · rw [← List.append_assoc, ← harray]
        simp
      · rw [hbefore, ← List.append_assoc]
        exact (surrounds_item hparts p).trans hsurrounds
  | object space members ih =>
    cases before with
    | nil =>
      rw [text] at h
      exact absurd (List.cons.inj h.eq).1 (by decide)
    | cons b before =>
      rw [text, memberTexts_eq_map] at h
      obtain ⟨left, m, right, rfl, pre, post, hparts, before', rest', hm, hbefore, rfl⟩ :=
        exists_part_of_opensAt_between (fun m _ => balanced_member m.value.value.balanced) rfl
          (by decide) h
      obtain ⟨before', hp, rfl⟩ := opensAt_member hm
      obtain ⟨before', rest', hvalue, rfl, rfl⟩ := opensAt_padded hp
      obtain ⟨space', items', after, harray, hsurrounds⟩ := ih m (by simp) hvalue
      refine ⟨space', items', after ++ (m.value.after.bytes ++ post), ?_, ?_⟩
      · rw [← List.append_assoc, ← harray]
        simp
      · have hmember := (surrounds_member hparts m).trans hsurrounds
        rw [hbefore]
        simpa using hmember

end Tree

end Json

end GoalProgress
