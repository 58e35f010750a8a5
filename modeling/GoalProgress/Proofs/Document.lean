import GoalProgress.Document
import GoalProgress.Proofs.Json.Key

/-!
# The reserved names of a JSON text

In a JSON text the search for reserved names sees exactly the names of members. A string literal
that is a value is passed over, and so is every escaped quote inside a literal, even if a reserved
name and a colon seem to follow it.

## Main definitions

* `Document.named?`: the reserved name that a name is.
* `Document.firstReserved?`: what the search finds at the start of a document.
-/
namespace GoalProgress.Document

open Json

/-- The reserved name that is spelled in a given way. -/
def named? (name : Bytes) : Option ReservedKey :=
  ReservedKey.all.find? fun k => Bytes.ofString k.name == name

theorem isPlainName_name (k : ReservedKey) : IsPlainName (Bytes.ofString k.name) := by
  cases k <;> exact .of_all (by decide) (by decide)

theorem name_of_named? {name : Bytes} {k : ReservedKey} (h : named? name = some k) :
    Bytes.ofString k.name = name := by
  have hk := List.find?_some h
  exact beq_iff_eq.1 hk

/-! ## A reserved name in front -/

theorem reservedAt?_cons {b : UInt8} (hb : b ≠ Byte.quote) (rest : Bytes) :
    reservedAt? (b :: rest) = none := by
  rw [reservedAt?, List.find?_eq_none]
  intro k _ hk
  rw [ReservedKey.literal, List.isPrefixOf_iff_prefix] at hk
  exact hb (List.cons_prefix_cons.1 hk).1.symm

/-- At the start of a string literal, the literal is looked at as a whole. -/
theorem reservedAt?_literal {body : Bytes} (hbody : Enclosed body) (rest : Bytes) :
    reservedAt? (Byte.quote :: (body ++ Byte.quote :: rest)) = named? body := by
  rw [reservedAt?, named?]
  congr 1
  funext k
  rw [Bool.eq_iff_iff, List.isPrefixOf_iff_prefix, beq_iff_eq, ReservedKey.literal]
  constructor
  · intro h
    exact (hbody.eq_of_isPrefix (isPlainName_name k).plain (List.cons_prefix_cons.1 h).2).1.symm
  · rintro rfl
    exact ⟨rest, by simp⟩

/-- No reserved name starts at the end of a string literal. -/
theorem reservedAt?_closing {rest : Bytes} (hrest : Delimited rest) :
    reservedAt? (Byte.quote :: rest) = none := by
  rw [reservedAt?, List.find?_eq_none]
  intro k _ hk
  rw [ReservedKey.literal, List.isPrefixOf_iff_prefix] at hk
  exact (isPlainName_name k).not_isPrefix hrest _ (List.cons_prefix_cons.1 hk).2

/-! ## Steps of the search -/

/-- Of the byte before, the search looks only at whether it is a backslash. -/
theorem reservedFrom?_before {before before' : Option UInt8}
    (h : before = some Byte.backslash ↔ before' = some Byte.backslash) (bs : Bytes) :
    reservedFrom? 0 before bs = reservedFrom? 0 before' bs := by
  cases bs with
  | nil => rfl
  | cons b rest =>
    have hname : isMemberName before = isMemberName before' := by
      funext after
      by_cases hb : before = some Byte.backslash
      · rw [hb, h.1 hb]
      · rw [isMemberName, isMemberName, bne_iff_ne.2 hb, bne_iff_ne.2 (fun hb' => hb (h.2 hb'))]
    rw [reservedFrom?, reservedFrom?, hname]

/-- What the search finds at the start of a document, or behind anything but a backslash. -/
def firstReserved? (bs : Bytes) : Option ReservedKey := reservedFrom? 0 none bs

theorem reservedFrom?_eq {b : UInt8} (hb : b ≠ Byte.backslash) (bs : Bytes) :
    reservedFrom? 0 (some b) bs = firstReserved? bs :=
  reservedFrom?_before (by simp [hb]) bs

theorem reservedFrom?_cons {b : UInt8} (hb : b ≠ Byte.quote) (before : Option UInt8)
    (rest : Bytes) : reservedFrom? 0 before (b :: rest) = reservedFrom? 0 (some b) rest := by
  rw [reservedFrom?, reservedAt?_cons hb]

theorem reservedFrom?_skip (bs : Bytes) (before : Option UInt8) (b : UInt8) (rest : Bytes) :
    reservedFrom? (bs.length + 1) before (bs ++ b :: rest) = reservedFrom? 0 (some b) rest := by
  induction bs generalizing before with
  | nil => rfl
  | cons x bs ih => exact ih (some x)

theorem length_literal (k : ReservedKey) :
    k.literal.length - 1 = (Bytes.ofString k.name).length + 1 := by
  simp [ReservedKey.literal]

/-- At an opening quote the search either finds the name of a member, or passes over a literal that
is reserved, or looks into the literal. -/
theorem reservedFrom?_quote {body : Bytes} (hbody : Enclosed body) (before : Option UInt8)
    (rest : Bytes) :
    reservedFrom? 0 before (Byte.quote :: (body ++ Byte.quote :: rest)) =
      match named? body with
      | some k => if isMemberName before rest then some k else firstReserved? rest
      | none => reservedFrom? 0 (some Byte.quote) (body ++ Byte.quote :: rest) := by
  rw [reservedFrom?, reservedAt?_literal hbody]
  cases hk : named? body with
  | none => rfl
  | some k =>
    have hname := name_of_named? hk
    have hafter : (Byte.quote :: (body ++ Byte.quote :: rest)).drop k.literal.length = rest := by
      have hliteral : Byte.quote :: (body ++ Byte.quote :: rest) = k.literal ++ rest := by
        simp [ReservedKey.literal, hname]
      rw [hliteral, List.drop_left]
    have hskip : reservedFrom? (k.literal.length - 1) (some Byte.quote)
        (body ++ Byte.quote :: rest) = firstReserved? rest := by
      rw [length_literal, hname, reservedFrom?_skip, reservedFrom?_eq (by decide)]
    simp only [hafter, hskip]

/-- **Inside a string literal the search finds nothing.** -/
theorem reservedFrom?_enclosed {body rest : Bytes} (hbody : Enclosed body)
    (hrest : Delimited rest) (before : Option UInt8) :
    reservedFrom? 0 before (body ++ Byte.quote :: rest) = firstReserved? rest := by
  induction hbody generalizing before with
  | nil =>
    rw [List.nil_append, reservedFrom?, reservedAt?_closing hrest]
    exact reservedFrom?_eq (by decide) rest
  | plain hq _ _ ih => rw [List.cons_append, reservedFrom?_cons hq, ih]
  | @pair b bs hbs ih =>
    rw [List.cons_append, List.cons_append, reservedFrom?_cons (by decide)]
    by_cases hb : b = Byte.quote
    · -- the look-behind sees the backslash, so that nothing is found at an escaped quote
      rw [hb, reservedFrom?_quote hbs]
      cases named? bs with
      | none => exact ih _
      | some k => rfl
    · rw [reservedFrom?_cons hb, ih]

/-- **A string literal is found if it is a reserved name and a colon follows.** -/
theorem firstReserved?_literal {body rest : Bytes} (hbody : Enclosed body)
    (hrest : Delimited rest) :
    firstReserved? (Byte.quote :: (body ++ Byte.quote :: rest)) =
      (if rest.firstInk? = some Byte.colon then named? body else none).or
        (firstReserved? rest) := by
  have hname : isMemberName none rest = (rest.firstInk? == some Byte.colon) := rfl
  rw [firstReserved?, reservedFrom?_quote hbody, hname]
  cases hk : named? body with
  | none =>
    rw [reservedFrom?_enclosed hbody hrest, ite_self]
    rfl
  | some k => by_cases hcolon : rest.firstInk? = some Byte.colon <;> simp [hcolon]

/-! ## The check -/

theorem check_eq_ok_iff (id : String) (doc : Bytes) :
    check id doc = .ok () ↔ fault? doc = none := by
  rw [check]
  cases fault? doc <;> simp

/-- The check fails with the fault of the document and its name. -/
theorem check_fails_iff (id : String) (doc : Bytes) :
    (∃ fault, check id doc = .error (.invalidDocument id fault)) ↔ fault? doc ≠ none := by
  rw [check]
  cases fault? doc <;> simp

end GoalProgress.Document
