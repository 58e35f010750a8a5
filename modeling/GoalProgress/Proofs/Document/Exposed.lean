import GoalProgress.Proofs.Document

/-!
# Reserved names that nothing can hide

In bytes that are no JSON text the search for reserved names may miss one, for it looks back for a
backslash and does not look into the names that it has found. It misses none that stands behind a
byte that parts members: such a byte is no backslash and is the last letter of no reserved name.

## Main definitions

* `Document.parting`: the bytes that part members.
* `Document.Midway`: how far the search is in a name that it has found.
* `Document.Exposed`: documents with a reserved name that nothing before it can hide.
-/
namespace GoalProgress.Document

open Json

/-- The bytes that may stand before a member: a comma, an opening brace, and blanks. -/
def parting : Bytes :=
  [Byte.comma, Byte.openBrace, Byte.space, Byte.tab, Byte.lineFeed, Byte.formFeed,
    Byte.carriageReturn]

/-- Where the closing quote of a reserved name comes next, no byte has parted members. -/
theorem not_isInfix_literal (k : ReservedKey) {b : UInt8} (hb : b ∈ parting) :
    ¬ [b, Byte.quote] <:+: k.literal := by
  have hall : (parting.all fun b => decide (¬ [b, Byte.quote] <:+: k.literal)) = true := by
    cases k <;> decide
  exact of_decide_eq_true (List.all_eq_true.1 hall b hb)

theorem named?_name (k : ReservedKey) : named? (Bytes.ofString k.name) = some k := by
  cases k <;> decide

/-! ## The search in any bytes -/

/-- The bytes to be skipped are what is left of a reserved name, behind the last byte seen. -/
def Midway (skip : Nat) (before : Option UInt8) (bs : Bytes) : Prop :=
  skip = 0 ∨ ∃ (k : ReservedKey) (passed : Bytes) (b : UInt8) (ahead : Bytes),
    k.literal = passed ++ b :: ahead ∧ before = some b ∧ ahead.length = skip ∧ ahead <+: bs

theorem isPrefix_of_reservedAt? {bs : Bytes} {k : ReservedKey} (h : reservedAt? bs = some k) :
    k.literal <+: bs := by
  have hprefix := List.find?_some h
  exact List.isPrefixOf_iff_prefix.1 hprefix

/-- **A step of the search** finds a name or goes on behind the byte. -/
theorem Midway.step {skip : Nat} {before : Option UInt8} {b : UInt8} {rest : Bytes}
    (h : Midway skip before (b :: rest)) :
    (∃ k, reservedFrom? skip before (b :: rest) = some k) ∨
      ∃ skip', Midway skip' (some b) rest ∧
        reservedFrom? skip before (b :: rest) = reservedFrom? skip' (some b) rest := by
  cases skip with
  | succ skip =>
    -- the byte is part of a name that was found, and the rest of the name is shorter by it
    rcases h with hzero | ⟨k, passed, c, ahead, hliteral, _, hlength, hprefix⟩
    · cases hzero
    · cases ahead with
      | nil => cases hlength
      | cons a ahead =>
        obtain ⟨rfl, hrest⟩ := List.cons_prefix_cons.1 hprefix
        refine .inr ⟨skip, .inr ⟨k, passed ++ [c], a, ahead, ?_, rfl, ?_, hrest⟩, rfl⟩
        · rw [hliteral, List.append_assoc, List.singleton_append]
        · exact Nat.succ.inj hlength
  | zero =>
    rw [reservedFrom?]
    cases hat : reservedAt? (b :: rest) with
    | none => exact .inr ⟨0, .inl rfl, rfl⟩
    | some k =>
      have hprefix := isPrefix_of_reservedAt? hat
      rw [ReservedKey.literal, List.cons_prefix_cons] at hprefix
      obtain ⟨rfl, hname⟩ := hprefix
      by_cases hmember : isMemberName before ((Byte.quote :: rest).drop k.literal.length) = true
      · exact .inl ⟨k, if_pos hmember⟩
      · -- no member: all of the name behind its opening quote is skipped
        refine .inr ⟨k.literal.length - 1, .inr ⟨k, [], Byte.quote, _, rfl, rfl, rfl, hname⟩, ?_⟩
        exact if_neg hmember

/-- **The search** finds a name in some bytes or goes on behind them. -/
theorem Midway.run {skip : Nat} {before : Option UInt8} {bs rest : Bytes}
    (h : Midway skip before (bs ++ rest)) :
    (∃ k, reservedFrom? skip before (bs ++ rest) = some k) ∨
      ∃ skip' before', Midway skip' before' rest ∧
        reservedFrom? skip before (bs ++ rest) = reservedFrom? skip' before' rest := by
  induction bs generalizing skip before with
  | nil => exact .inr ⟨skip, before, h, rfl⟩
  | cons b bs ih =>
    rw [List.cons_append] at h ⊢
    rcases h.step with hfound | ⟨skip', hmidway, hstep⟩
    · exact .inl hfound
    · rw [hstep]
      exact ih hmidway

/-- Behind a byte that parts members the search is within no name. -/
theorem Midway.eq_zero {skip : Nat} {b : UInt8} {rest : Bytes} (hb : b ∈ parting)
    (h : Midway skip (some b) (Byte.quote :: rest)) : skip = 0 := by
  rcases h with hzero | ⟨k, passed, c, ahead, hliteral, hbefore, hlength, hprefix⟩
  · exact hzero
  · cases ahead with
    | nil => exact hlength.symm
    | cons a ahead =>
      obtain rfl := Option.some.inj hbefore
      obtain ⟨rfl, _⟩ := List.cons_prefix_cons.1 hprefix
      -- the quote ahead would close the name, so that `b` were its last letter
      exact absurd ⟨passed, ahead, by simp [hliteral]⟩ (not_isInfix_literal k hb)

/-! ## Names that are found -/

/-- A document with a reserved name behind a byte that parts members, and a colon behind it. -/
def Exposed (doc : Bytes) : Prop :=
  ∃ (before : Bytes) (b : UInt8) (k : ReservedKey) (rest : Bytes), b ∈ parting ∧
    doc = before ++ b :: (k.literal ++ Byte.colon :: rest)

namespace Exposed

variable {doc : Bytes}

theorem append (h : Exposed doc) (before after : Bytes) : Exposed (before ++ doc ++ after) := by
  obtain ⟨before', b, k, rest, hb, rfl⟩ := h
  exact ⟨before ++ before', b, k, rest ++ after, hb, by simp⟩

/-- **A reserved name behind a byte that parts members is not missed**, whatever stands before. -/
theorem exists_reservedFrom? (h : Exposed doc) : ∃ k, reservedFrom? 0 none doc = some k := by
  obtain ⟨before, b, k, rest, hb, rfl⟩ := h
  have hstart : Midway 0 none (before ++ b :: (k.literal ++ Byte.colon :: rest)) := .inl rfl
  rcases hstart.run with hfound | ⟨skip, last, hmidway, hrun⟩
  · exact hfound
  · rw [hrun]
    rcases hmidway.step with hfound | ⟨skip', hmidway', hstep⟩
    · exact hfound
    · have hliteral : k.literal ++ Byte.colon :: rest =
          Byte.quote :: (Bytes.ofString k.name ++ Byte.quote :: Byte.colon :: rest) := by
        simp [ReservedKey.literal]
      have hmember : isMemberName (some b) (Byte.colon :: rest) = true := by
        have hne : b ≠ Byte.backslash := by
          rintro rfl
          exact absurd hb (by decide)
        rw [isMemberName, Bool.and_eq_true, bne_iff_ne, ne_eq, Option.some.injEq]
        exact ⟨hne, rfl⟩
      rw [hliteral] at hmidway' hstep ⊢
      rw [hstep, hmidway'.eq_zero hb, reservedFrom?_quote (.of_forall (isPlainName_name k).plain),
        named?_name]
      exact ⟨k, if_pos hmember⟩

/-- The check refuses the document for a reserved name, under every id. -/
theorem exists_check_eq (h : Exposed doc) (hbrace : Byte.closeBrace ∈ doc) (id : String) :
    ∃ k, check id doc = .error (.invalidDocument id (.reservedKey k)) := by
  obtain ⟨k, hk⟩ := h.exists_reservedFrom?
  refine ⟨k, ?_⟩
  have hlast : (doc.lastByte? Byte.closeBrace).isNone = false := by
    rw [← Bool.not_eq_true, Option.isNone_iff_eq_none, Bytes.lastByte?_eq_none_iff]
    exact fun hmem => hmem hbrace
  rw [check, fault?, hlast, hk]
  rfl

end Exposed

end GoalProgress.Document
