import GoalProgress.Proofs.Bytes.Search
import GoalProgress.Proofs.Json.Escape

/-!
# Searching for the name of a member

A member is searched for as bytes: its name between quotes, and the colon right behind. In front of
it these bytes cannot occur as long as the literals before it are values, or names of other members,
whatever the values contain.

## Main definitions

* `Json.Delimited`: what may follow a string literal.
* `Json.keyText`: a name as it is searched for.
-/
namespace GoalProgress.Json

/-- A byte that may follow a string literal. -/
def isDelimiter (b : UInt8) : Bool :=
  isSpace b || b == Byte.comma || b == Byte.colon || b == Byte.closeBracket || b == Byte.closeBrace

/-- What may follow a string literal: nothing, or something that starts with a delimiter. -/
def Delimited (rest : Bytes) : Prop := ∀ b, rest.head? = some b → isDelimiter b = true

theorem Delimited.cons {b : UInt8} (h : isDelimiter b = true) (rest : Bytes) :
    Delimited (b :: rest) := by
  intro x hx
  rw [List.head?_cons, Option.some.injEq] at hx
  rw [← hx]
  exact h

theorem delimited_space (space : Space) {rest : Bytes} (h : Delimited rest) :
    Delimited (space.bytes ++ rest) := by
  obtain ⟨bytes, valid⟩ := space
  cases bytes with
  | nil => exact h
  | cons b bytes =>
    have hb := valid b List.mem_cons_self
    exact .cons (by simp [isDelimiter, hb]) _

/-- A name that is used unescaped, and has no delimiter for its first byte. -/
structure IsPlainName (name : Bytes) : Prop where
  plain : ∀ b ∈ name, b ≠ Byte.quote ∧ b ≠ Byte.backslash
  starts : ∃ b, name.head? = some b ∧ isDelimiter b = false

theorem IsPlainName.of_all {name : Bytes}
    (hall : (name.all fun b => b != Byte.quote && b != Byte.backslash) = true)
    (hhead : (name.head?.any fun b => !isDelimiter b) = true) : IsPlainName name where
  plain b hb := by
    have h := List.all_eq_true.1 hall b hb
    rwa [Bool.and_eq_true, bne_iff_ne, bne_iff_ne] at h
  starts := by
    cases name with
    | nil => cases hhead
    | cons b name => exact ⟨b, rfl, by simpa using hhead⟩

/-- A name cannot start where a literal has just ended. -/
theorem IsPlainName.not_isPrefix {name : Bytes} (hname : IsPlainName name) {rest : Bytes}
    (hrest : Delimited rest) (tail : Bytes) : ¬ name ++ tail <+: rest := by
  obtain ⟨b, hb, hdelimiter⟩ := hname.starts
  cases name with
  | nil => cases hb
  | cons n name =>
    rw [List.head?_cons, Option.some.injEq] at hb
    intro h
    cases rest with
    | nil => exact absurd (List.prefix_nil.1 h) (by simp)
    | cons r rest =>
      have hr := hrest r rfl
      rw [← (List.cons_prefix_cons.1 h).1, hb, hdelimiter] at hr
      exact Bool.false_ne_true hr

/-- The name of a member as it is searched for: between quotes, with the colon. -/
def keyText (name : Bytes) : Bytes := Byte.quote :: (name ++ [Byte.quote, Byte.colon])

variable {name : Bytes}

/-- Where a quote stands before a literal's content, the key is found only if it is the literal and
a colon follows. -/
theorem not_keyText_isPrefix (hname : IsPlainName name) {body rest : Bytes} (hbody : Enclosed body)
    (h : body ≠ name ∨ rest.head? ≠ some Byte.colon) :
    ¬ keyText name <+: Byte.quote :: (body ++ Byte.quote :: rest) := by
  intro hprefix
  obtain ⟨heq, htail⟩ := hbody.eq_of_isPrefix hname.plain (List.cons_prefix_cons.1 hprefix).2
  rcases h with h | h
  · exact h heq
  · cases rest with
    | nil => exact absurd (List.prefix_nil.1 htail) (by simp)
    | cons r rest => exact h (by rw [(List.cons_prefix_cons.1 htail).1]; rfl)

/-- No key starts at the closing quote of a literal. -/
theorem clear_closing_quote (hname : IsPlainName name) {rest : Bytes} (hrest : Delimited rest) :
    Bytes.Clear (keyText name) [Byte.quote] rest := by
  refine ⟨?_, trivial⟩
  intro hprefix
  exact hname.not_isPrefix hrest _ (List.cons_prefix_cons.1 hprefix).2

theorem clear_enclosed (hname : IsPlainName name) {body rest : Bytes} (hbody : Enclosed body)
    (hrest : Delimited rest) (hcolon : rest.head? ≠ some Byte.colon) :
    Bytes.Clear (keyText name) (body ++ [Byte.quote]) rest := by
  induction hbody with
  | nil => exact clear_closing_quote hname hrest
  | plain hq _ _ ih => exact ⟨fun h => hq (List.cons_prefix_cons.1 h).1.symm, ih⟩
  | @pair b bs hbs ih =>
    refine ⟨fun h => absurd (List.cons_prefix_cons.1 h).1 (by decide), ?_, ih⟩
    by_cases hb : b = Byte.quote
    · -- an escaped quote could open the key, but then the key's colon would stand in `rest`
      have hkey := not_keyText_isPrefix hname hbs (.inr hcolon)
      rw [List.append_cons] at hkey
      rw [hb]
      exact hkey
    · exact fun h => hb (List.cons_prefix_cons.1 h).1.symm

/-- **No key starts in a literal that is no name.** -/
theorem clear_value (hname : IsPlainName name) {body rest : Bytes} (hbody : Enclosed body)
    (hrest : Delimited rest) (hcolon : rest.head? ≠ some Byte.colon) :
    Bytes.Clear (keyText name) (Byte.quote :: (body ++ [Byte.quote])) rest := by
  refine ⟨?_, clear_enclosed hname hbody hrest hcolon⟩
  rw [List.append_assoc]
  exact not_keyText_isPrefix hname hbody (.inr hcolon)

/-- No key starts in another name that has neither quotes nor backslashes. -/
theorem clear_name (hname : IsPlainName name) {other rest : Bytes} (hother : IsPlainName other)
    (hne : other ≠ name) (hrest : Delimited rest) :
    Bytes.Clear (keyText name) (Byte.quote :: (other ++ [Byte.quote])) rest := by
  refine ⟨?_, ?_⟩
  · rw [List.append_assoc]
    exact not_keyText_isPrefix hname (.of_forall hother.plain) (.inl hne)
  · rw [Bytes.clear_append]
    refine ⟨?_, clear_closing_quote hname hrest⟩
    exact Bytes.clear_of_not_mem (fun hq => (hother.plain _ hq).1 rfl) _

/-- No key starts in a member with another name and a string literal for its value, if a comma
follows. -/
theorem clear_member (hname : IsPlainName name) {other body : Bytes} (hother : IsPlainName other)
    (hne : other ≠ name) (hbody : Enclosed body) (rest : Bytes) :
    Bytes.Clear (keyText name) (Byte.quote :: (other ++ [Byte.quote]) ++ Byte.colon ::
      (Byte.quote :: (body ++ [Byte.quote]) ++ [Byte.comma])) rest := by
  have hcomma : Byte.quote ∉ [Byte.comma] := by decide
  refine Bytes.clear_append.2 ⟨clear_name hname hother hne (.cons rfl _), ?_, ?_⟩
  · exact fun h => absurd (List.cons_prefix_cons.1 h).1 (by decide)
  · refine Bytes.clear_append.2 ⟨?_, Bytes.clear_of_not_mem hcomma _⟩
    have hcolon : some Byte.comma ≠ some Byte.colon := by decide
    exact clear_value hname hbody (.cons rfl _) hcolon

end GoalProgress.Json
