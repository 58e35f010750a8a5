import GoalProgress.Proofs.Scan.Balanced

/-!
# The objects between separators

Between objects the object scanner passes over everything that is no brace and no string literal,
and inside an object over balanced bytes. What it finds are therefore the outermost objects,
whatever brackets, literals and separators stand between them.

## Main definitions

* `Scan.IsObject`: braces around balanced bytes.
* `Scan.Outermost`: bytes with their outermost objects.
-/
namespace GoalProgress.Scan

namespace ObjectState

/-- Outside string literals, with `depth` braces open, the outermost at position `start`. -/
def clear (depth start : Nat) : ObjectState := ⟨.outside, depth, start⟩

theorem spansFrom_cons {s : ObjectState} {b : UInt8} (i : Nat) (rest : Bytes)
    (h : s.literal.isStructural b = false ∨ (b ≠ Byte.openBrace ∧ b ≠ Byte.closeBrace)) :
    s.spansFrom i (b :: rest) =
      { s with literal := s.literal.next b }.spansFrom (i + 1) rest := by
  rcases h with h | ⟨ho, hc⟩
  · simp [spansFrom, next, h]
  · simp [spansFrom, next, ho, hc]

theorem spansFrom_silent {s : ObjectState} {bs : Bytes} (h : Silent s.literal bs) (i : Nat)
    (rest : Bytes) :
    s.spansFrom i (bs ++ rest) =
      { s with literal := s.literal.after bs }.spansFrom (i + bs.length) rest := by
  induction bs generalizing s i with
  | nil => rfl
  | cons b bs ih =>
    rw [List.cons_append, spansFrom_cons i _ (.inl h.1), List.length_cons, Nat.add_comm bs.length,
      ← Nat.add_assoc]
    exact ih (s := ⟨s.literal.next b, s.depth, s.start⟩) h.2 (i + 1)

theorem spansFrom_inert {b : UInt8} (hb : isInert b = true) (depth start i : Nat) (rest : Bytes) :
    (clear depth start).spansFrom i (b :: rest) = (clear depth start).spansFrom (i + 1) rest := by
  simp only [isInert, Bool.and_eq_true, bne_iff_ne] at hb
  have hn : Literal.outside.next b = .outside := by simp [Literal.next, Literal.outside, hb]
  rw [spansFrom_cons i rest (.inr ⟨hb.1.2, hb.2⟩)]
  simp only [clear, hn]

theorem spansFrom_inert_append {bs : Bytes} (h : ∀ b ∈ bs, isInert b = true) (depth start i : Nat)
    (rest : Bytes) :
    (clear depth start).spansFrom i (bs ++ rest) =
      (clear depth start).spansFrom (i + bs.length) rest := by
  induction bs generalizing i with
  | nil => rfl
  | cons b bs ih =>
    rw [List.forall_mem_cons] at h
    rw [List.cons_append, spansFrom_inert h.1, ih h.2, List.length_cons, Nat.add_comm bs.length,
      Nat.add_assoc]

/-- Inside an object, the scanner passes over balanced bytes. -/
theorem spansFrom_balanced {bs : Bytes} (h : Balanced bs) (depth start i : Nat) (rest : Bytes) :
    (clear (depth + 1) start).spansFrom i (bs ++ rest) =
      (clear (depth + 1) start).spansFrom (i + bs.length) rest := by
  induction h generalizing depth i rest with
  | nil => rfl
  | append _ _ ihb ihc =>
    rw [List.append_assoc, ihb, ihc, List.length_append, Nat.add_assoc]
  | inert hb => exact spansFrom_inert hb _ _ _ _
  | literal hb =>
    rw [spansFrom_silent (silent_literal hb)]
    simp only [clear, after_literal hb]
  | @brackets bs _ ih =>
    have hopen : (clear (depth + 1) start).spansFrom i
        (Byte.openBracket :: (bs ++ [Byte.closeBracket]) ++ rest) =
        (clear (depth + 1) start).spansFrom (i + 1) (bs ++ Byte.closeBracket :: rest) := by
      rw [List.cons_append, spansFrom_cons i _ (.inr (by decide)), List.append_assoc]
      rfl
    have hclose : (clear (depth + 1) start).spansFrom (i + 1 + bs.length)
        (Byte.closeBracket :: rest) =
        (clear (depth + 1) start).spansFrom (i + 1 + bs.length + 1) rest := by
      rw [spansFrom_cons _ rest (.inr (by decide))]
      rfl
    rw [hopen, ih, hclose, List.length_cons, List.length_append, List.length_singleton]
    congr 1
    omega
  | @braces bs _ ih =>
    have hopen : (clear (depth + 1) start).spansFrom i
        (Byte.openBrace :: (bs ++ [Byte.closeBrace]) ++ rest) =
        (clear (depth + 1 + 1) start).spansFrom (i + 1) (bs ++ Byte.closeBrace :: rest) := by
      rw [List.cons_append, List.append_assoc]
      rfl
    have hclose : (clear (depth + 1 + 1) start).spansFrom (i + 1 + bs.length)
        (Byte.closeBrace :: rest) =
        (clear (depth + 1) start).spansFrom (i + 1 + bs.length + 1) rest := rfl
    rw [hopen, ih, hclose, List.length_cons, List.length_append, List.length_singleton]
    congr 1
    omega

end ObjectState

open ObjectState

/-- Braces around balanced bytes. -/
def IsObject (bs : Bytes) : Prop :=
  ∃ body, Balanced body ∧ bs = Byte.openBrace :: (body ++ [Byte.closeBrace])

theorem IsObject.balanced {bs : Bytes} (h : IsObject bs) : Balanced bs := by
  obtain ⟨body, hbody, rfl⟩ := h
  exact .braces hbody

/-- Between objects, an object is found and passed over. -/
theorem spansFrom_object {bs : Bytes} (h : IsObject bs) (start i : Nat) (rest : Bytes) :
    (clear 0 start).spansFrom i (bs ++ rest) =
      ⟨i, i + bs.length⟩ :: (clear 0 i).spansFrom (i + bs.length) rest := by
  obtain ⟨body, hb, rfl⟩ := h
  have hopen : (clear 0 start).spansFrom i
      (Byte.openBrace :: (body ++ [Byte.closeBrace]) ++ rest) =
      (clear 1 i).spansFrom (i + 1) (body ++ Byte.closeBrace :: rest) := by
    rw [List.cons_append, List.append_assoc]
    rfl
  have hclose : (clear 1 i).spansFrom (i + 1 + body.length) (Byte.closeBrace :: rest) =
      ⟨i, i + 1 + body.length + 1⟩ :: (clear 0 i).spansFrom (i + 1 + body.length + 1) rest := rfl
  have hlen : i + (Byte.openBrace :: (body ++ [Byte.closeBrace])).length =
      i + 1 + body.length + 1 := by
    simp only [List.length_cons, List.length_append, List.length_nil]
    omega
  rw [hopen, spansFrom_balanced hb, hclose, hlen]

/-! ## Outermost objects -/

/-- Bytes with their outermost objects: the objects may be inside brackets, but not inside other
objects or string literals. -/
inductive Outermost : Bytes → List Bytes → Prop
  | nil : Outermost [] []
  | append {bs cs : Bytes} {os os' : List Bytes} (hb : Outermost bs os) (hc : Outermost cs os') :
      Outermost (bs ++ cs) (os ++ os')
  | inert {b : UInt8} (h : isInert b = true) : Outermost [b] []
  | bracket {b : UInt8} (h : b = Byte.openBracket ∨ b = Byte.closeBracket) : Outermost [b] []
  | literal {body : Bytes} (h : Json.Enclosed body) :
      Outermost (Byte.quote :: (body ++ [Byte.quote])) []
  | object {bs : Bytes} (h : IsObject bs) : Outermost bs [bs]

namespace Outermost

theorem cons {b : UInt8} {bs : Bytes} {os : List Bytes} (hb : isInert b = true)
    (h : Outermost bs os) : Outermost (b :: bs) os :=
  append (inert hb) h

theorem of_inert {bs : Bytes} (h : ∀ b ∈ bs, isInert b = true) : Outermost bs [] := by
  induction bs with
  | nil => exact .nil
  | cons b bs ih => exact .cons (h b (by simp)) (ih fun x hx => h x (by simp [hx]))

theorem brackets {bs : Bytes} {os : List Bytes} (h : Outermost bs os) :
    Outermost (Byte.openBracket :: (bs ++ [Byte.closeBracket])) os := by
  have hinside := append h (bracket (.inr rfl))
  rw [List.append_nil] at hinside
  exact append (bracket (.inl rfl)) hinside

theorem flatMap {α : Type} {as : List α} {f : α → Bytes} {g : α → List Bytes}
    (h : ∀ a ∈ as, Outermost (f a) (g a)) : Outermost (as.flatMap f) (as.flatMap g) := by
  induction as with
  | nil => exact .nil
  | cons a as ih => exact (h a (by simp)).append (ih fun x hx => h x (by simp [hx]))

theorem joined {α : Type} {as : List α} {f : α → Bytes} {g : α → List Bytes}
    (h : ∀ a ∈ as, Outermost (f a) (g a)) : Outermost (Json.joined (as.map f)) (as.flatMap g) := by
  cases as with
  | nil => exact .nil
  | cons a as =>
    rw [List.map_cons, Json.joined_cons, List.flatMap_map]
    exact (h a (by simp)).append (flatMap fun x hx => .cons rfl (h x (by simp [hx])))

/-- Between objects the scanner finds the outermost objects of the bytes that come next, and goes on
behind them. The start that it remembers makes no difference there. -/
theorem spansFrom {bs : Bytes} {os : List Bytes} (h : Outermost bs os) (before rest : Bytes)
    (start : Nat) :
    ∃ start', ((clear 0 start).spansFrom before.length (bs ++ rest)).map
        (·.slice (before ++ bs ++ rest)) =
      os ++ ((clear 0 start').spansFrom (before ++ bs).length rest).map
        (·.slice (before ++ bs ++ rest)) := by
  induction h generalizing before rest start with
  | nil => exact ⟨start, by simp⟩
  | @append bs cs os os' _ _ ihb ihc =>
    obtain ⟨middle, hb⟩ := ihb before (cs ++ rest) start
    obtain ⟨start', hc⟩ := ihc (before ++ bs) rest middle
    simp only [List.append_assoc] at hb hc ⊢
    exact ⟨start', by rw [hb, hc]⟩
  | inert hb => exact ⟨start, by rw [List.singleton_append, spansFrom_inert hb]; simp⟩
  | @bracket b hb =>
    have hpass : (clear 0 start).spansFrom before.length (b :: rest) =
        (clear 0 start).spansFrom (before.length + 1) rest := by
      rcases hb with rfl | rfl <;> exact spansFrom_cons _ rest (.inr (by decide))
    exact ⟨start, by rw [List.singleton_append, hpass]; simp⟩
  | literal hb =>
    refine ⟨start, ?_⟩
    rw [spansFrom_silent (silent_literal hb), List.length_append]
    simp only [clear, after_literal hb, List.nil_append]
  | @object bs hb =>
    refine ⟨before.length, ?_⟩
    have hslice : Span.slice ⟨before.length, before.length + bs.length⟩ (before ++ bs ++ rest) =
        bs := by
      rw [Span.slice, List.take_left' List.length_append, List.drop_left]
    rw [spansFrom_object hb, List.map_cons, hslice, List.length_append, List.singleton_append]

end Outermost

/-- **Exactly the outermost objects are found**, in order and as wholes. -/
theorem slice_objectSpans {bs : Bytes} {os : List Bytes} (h : Outermost bs os) :
    (objectSpans bs).map (·.slice bs) = os := by
  obtain ⟨start, hspans⟩ := h.spansFrom [] [] 0
  have hbetween : objectSpans bs = (clear 0 0).spansFrom 0 bs := rfl
  rw [hbetween]
  simpa [ObjectState.spansFrom] using hspans

/-- **Objects that are joined by commas are found one by one.** -/
theorem objects_joined {objects : List Bytes} (h : ∀ o ∈ objects, IsObject o) :
    (objectSpans (Json.joined objects)).map (·.slice (Json.joined objects)) = objects := by
  have hjoined := Outermost.joined (f := fun o => o) (g := fun o => [o])
    fun o ho => .object (h o ho)
  rw [List.map_id', List.flatMap_singleton'] at hjoined
  exact slice_objectSpans hjoined

end GoalProgress.Scan
