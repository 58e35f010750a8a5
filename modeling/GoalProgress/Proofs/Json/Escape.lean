import GoalProgress.Proofs.Json.Tree
import GoalProgress.Proofs.Text.Encoding

/-!
# Escaped texts

Escaping leaves no quote that could end a string literal: every quote of an escaped text stands
right after the backslash that takes it. A text is its own escaped form exactly if nothing in it has
to be escaped.

## Main definitions

* `Json.Enclosed`: bytes that no quote in them ends.
* `Json.EscapeStyle.Sound`: escape letters stand for the bytes they are used for.
-/
namespace GoalProgress.Json

/-- Bytes in which every quote stands right after a backslash that takes it. -/
inductive Enclosed : Bytes → Prop
  | nil : Enclosed []
  | plain {b : UInt8} {bs : Bytes} (hq : b ≠ Byte.quote) (hs : b ≠ Byte.backslash)
      (h : Enclosed bs) : Enclosed (b :: bs)
  | pair (b : UInt8) {bs : Bytes} (h : Enclosed bs) : Enclosed (Byte.backslash :: b :: bs)

namespace Enclosed

theorem append {bs cs : Bytes} (hb : Enclosed bs) (hc : Enclosed cs) : Enclosed (bs ++ cs) := by
  induction hb with
  | nil => exact hc
  | plain hq hs _ ih => exact .plain hq hs ih
  | pair b _ ih => exact .pair b ih

theorem of_forall {bs : Bytes} (h : ∀ b ∈ bs, b ≠ Byte.quote ∧ b ≠ Byte.backslash) :
    Enclosed bs := by
  induction bs with
  | nil => exact .nil
  | cons b bs ih =>
    have hb := h b (by simp)
    exact .plain hb.1 hb.2 (ih fun x hx => h x (by simp [hx]))

/-- A name without quotes and backslashes that is found up to a closing quote is all of the literal
it is found in. -/
theorem eq_of_isPrefix {body name tail rest : Bytes} (hbody : Enclosed body)
    (hname : ∀ b ∈ name, b ≠ Byte.quote ∧ b ≠ Byte.backslash)
    (h : name ++ Byte.quote :: tail <+: body ++ Byte.quote :: rest) :
    body = name ∧ tail <+: rest := by
  induction hbody generalizing name with
  | nil =>
    cases name with
    | nil => exact ⟨rfl, by simpa using h⟩
    | cons n name =>
      have hn : n = Byte.quote := by simpa using (List.cons_prefix_cons.1 h).1
      exact absurd hn (hname n (by simp)).1
  | plain hq _ _ ih =>
    cases name with
    | nil => exact absurd (List.cons_prefix_cons.1 h).1.symm hq
    | cons n name =>
      obtain ⟨rfl, h'⟩ := List.cons_prefix_cons.1 h
      obtain ⟨rfl, ht⟩ := ih (fun b hb => hname b (List.mem_cons_of_mem n hb)) h'
      exact ⟨rfl, ht⟩
  | pair b _ _ =>
    cases name with
    | nil => exact absurd (List.cons_prefix_cons.1 h).1 (by decide)
    | cons n name =>
      obtain ⟨rfl, _⟩ := List.cons_prefix_cons.1 h
      exact absurd rfl (hname _ (by simp)).2

end Enclosed

/-! ## Escape styles -/

/-- Every escape letter stands for the byte it is used for, which has to be escaped, and quotes and
backslashes have one. -/
structure EscapeStyle.Sound (style : EscapeStyle) : Prop where
  unescape {b letter : UInt8} (h : style.letter? b = some letter) : unescape? letter = some b
  needed {b letter : UInt8} (h : style.letter? b = some letter) : needsEscape b = true
  quote : style.letter? Byte.quote = some Byte.quote
  backslash : style.letter? Byte.backslash = some Byte.backslash

theorem EscapeStyle.short_sound : EscapeStyle.short.Sound where
  unescape {b letter} h := by
    simp only [short] at h
    repeat' split at h
    all_goals first | cases h; subst_vars; decide | cases h
  needed {b letter} h := by
    simp only [short] at h
    repeat' split at h
    all_goals first | cases h; subst_vars; decide | cases h
  quote := by decide
  backslash := by decide

theorem EscapeStyle.full_sound : EscapeStyle.full.Sound where
  unescape {b letter} h := by
    simp only [full] at h
    split at h
    · cases h; subst_vars; decide
    · split at h
      · cases h; subst_vars; decide
      · exact short_sound.unescape h
  needed {b letter} h := by
    simp only [full] at h
    split at h
    · cases h; subst_vars; decide
    · split at h
      · cases h; subst_vars; decide
      · exact short_sound.needed h
  quote := by decide
  backslash := by decide

theorem mem_escapeLetters {letter b : UInt8} (h : unescape? letter = some b) :
    letter ∈ escapeLetters := by
  simp only [unescape?] at h
  split at h
  · rename_i hl
    rcases hl with rfl | rfl | rfl <;> simp [escapeLetters]
  · repeat' split at h
    all_goals simp_all [escapeLetters]

variable {style : EscapeStyle}

theorem needsEscape_iff {b : UInt8} :
    needsEscape b = true ↔ b = Byte.quote ∨ b = Byte.backslash ∨ b < 0x20 := by
  simp [needsEscape, or_assoc]

/-- A byte that has to be escaped is escaped with a letter or by its number. -/
theorem escapeByte_cases (hs : style.Sound) (b : UInt8) :
    (needsEscape b = false ∧ escapeByte style b = [b]) ∨
    (∃ letter, unescape? letter = some b ∧ needsEscape b = true ∧
      escapeByte style b = [Byte.backslash, letter]) ∨
    (b < 0x20 ∧ escapeByte style b =
      [Byte.backslash, 0x75, Byte.zero, Byte.zero, Byte.hexDigit (b / 16),
        Byte.hexDigit (b % 16)]) := by
  cases hl : style.letter? b with
  | some letter =>
    exact .inr (.inl ⟨letter, hs.unescape hl, hs.needed hl, by simp [escapeByte, hl]⟩)
  | none =>
    by_cases hb : b < 0x20
    · exact .inr (.inr ⟨hb, by simp [escapeByte, hl, hb]⟩)
    · refine .inl ⟨?_, by simp [escapeByte, hl, hb]⟩
      rw [← Bool.not_eq_true, needsEscape_iff]
      rintro (rfl | rfl | h)
      · simp [hs.quote] at hl
      · simp [hs.backslash] at hl
      · exact hb h

theorem hexDigit_cases {n : UInt8} (h : n < 16) :
    Byte.hexDigit n ≠ Byte.quote ∧ (Byte.hexDigit n).toNat < 0x80 ∧
      Byte.hexValue? (Byte.hexDigit n) = some n.toNat := by
  have hall : ∀ k < 16, Byte.hexDigit (UInt8.ofNat k) ≠ Byte.quote ∧
      (Byte.hexDigit (UInt8.ofNat k)).toNat < 0x80 ∧
      Byte.hexValue? (Byte.hexDigit (UInt8.ofNat k)) = some k := by decide
  have hn := hall n.toNat h
  rwa [UInt8.ofNat_toNat] at hn

theorem halves_lt {b : UInt8} (hb : b < 0x20) : b / 16 < 16 ∧ b % 16 < 16 := by
  simp only [UInt8.lt_iff_toNat_lt, UInt8.toNat_div, UInt8.toNat_mod, UInt8.reduceToNat] at hb ⊢
  omega

/-! ## What needs no escape -/

theorem escapeByte_eq_singleton_iff (hs : style.Sound) (b : UInt8) :
    escapeByte style b = [b] ↔ needsEscape b = false := by
  rcases escapeByte_cases hs b with ⟨hb, he⟩ | ⟨letter, _, hb, he⟩ | ⟨hb, he⟩
  · simp [hb, he]
  · simp [hb, he]
  · have hn : needsEscape b = true := needsEscape_iff.2 (.inr (.inr hb))
    simp [hn, he]

theorem one_le_length_escapeByte (hs : style.Sound) (b : UInt8) :
    1 ≤ (escapeByte style b).length := by
  rcases escapeByte_cases hs b with ⟨_, he⟩ | ⟨_, _, _, he⟩ | ⟨_, he⟩ <;> simp [he]

theorem length_le_length_escape (hs : style.Sound) (bs : Bytes) :
    bs.length ≤ (escape style bs).length := by
  induction bs with
  | nil => simp
  | cons b bs ih =>
    have hb := one_le_length_escapeByte hs b
    rw [escape_cons, List.length_append, List.length_cons]
    omega

theorem isVerbatim_iff {bs : Bytes} :
    isVerbatim bs = true ↔ ∀ b ∈ bs, needsEscape b = false := by
  simp only [isVerbatim, Bool.not_eq_true', List.any_eq_false, Bool.not_eq_true]

/-- **Escaping changes a text exactly if something in it has to be escaped.** -/
theorem escape_eq_self_iff (hs : style.Sound) (bs : Bytes) :
    escape style bs = bs ↔ isVerbatim bs = true := by
  induction bs with
  | nil => simp [isVerbatim]
  | cons b bs ih =>
    have hv : isVerbatim (b :: bs) = true ↔ needsEscape b = false ∧ isVerbatim bs = true := by
      simp only [isVerbatim_iff, List.forall_mem_cons]
    rw [hv, escape_cons, ← escapeByte_eq_singleton_iff hs, ← ih]
    constructor
    · intro h
      have hb : escapeByte style b = [b] := by
        have hlen := congrArg List.length h
        have h1 := one_le_length_escapeByte hs b
        have h2 := length_le_length_escape hs bs
        rw [List.length_append, List.length_cons] at hlen
        have hone : (escapeByte style b).length = 1 := by omega
        obtain ⟨x, hx⟩ := List.length_eq_one_iff.1 hone
        rw [hx, List.singleton_append, List.cons.injEq] at h
        rw [hx, h.1]
      rw [hb, List.singleton_append, List.cons.injEq] at h
      exact ⟨hb, h.2⟩
    · rintro ⟨hb, hbs⟩
      rw [hb, hbs, List.singleton_append]

theorem needsEscape_of_le {b : UInt8} (hb : 0x80 ≤ b.toNat) : needsEscape b = false := by
  rw [← Bool.not_eq_true, needsEscape_iff]
  rintro (rfl | rfl | h)
  · exact absurd hb (by decide)
  · exact absurd hb (by decide)
  · rw [UInt8.lt_iff_toNat_lt] at h
    exact absurd hb (by simp only [UInt8.reduceToNat] at h; omega)

/-- No byte of a character beyond ASCII has to be escaped. -/
theorem needsEscape_of_mem_encode {c : Char} (hc : 0x80 ≤ c.toNat) :
    ∀ b ∈ String.utf8EncodeChar c, needsEscape b = false :=
  fun _ hb => needsEscape_of_le (Bytes.le_of_mem_encode hc hb)

theorem escape_of_forall (hs : style.Sound) {bs : Bytes} (h : ∀ b ∈ bs, needsEscape b = false) :
    escape style bs = bs := by
  rwa [escape_eq_self_iff hs, isVerbatim_iff]

/-- A character needs an escape if one of its bytes does. -/
theorem needsEscape_encode_iff (c : Char) :
    (∀ b ∈ String.utf8EncodeChar c, needsEscape b = false) ↔
      c ≠ '"' ∧ c ≠ '\\' ∧ 0x20 ≤ c.toNat := by
  by_cases hc : c.toNat < 0x80
  · have hb : (UInt8.ofNat c.toNat).toNat = c.toNat :=
      UInt8.toNat_ofNat_of_lt' (by simp only [UInt8.size]; omega)
    have hchar (a : Char) (ha : a.toNat < 0x80) : UInt8.ofNat c.toNat = UInt8.ofNat a.toNat ↔
        c = a := by
      rw [← UInt8.toNat_inj, hb, UInt8.toNat_ofNat_of_lt' (by simp only [UInt8.size]; omega)]
      exact Char.toNat_inj
    rw [Bytes.encode_ascii hc, List.forall_mem_singleton, ← Bool.not_eq_true, needsEscape_iff,
      not_or, not_or, UInt8.lt_iff_toNat_lt, hb, Nat.not_lt]
    exact and_congr (not_congr (hchar '"' (by decide)))
      (and_congr (not_congr (hchar '\\' (by decide))) Iff.rfl)
  · refine iff_of_true (needsEscape_of_mem_encode (Nat.le_of_not_lt hc)) ⟨?_, ?_, by omega⟩
    · rintro rfl
      exact hc (by decide)
    · rintro rfl
      exact hc (by decide)

/-- A text needs no escapes if it has no quotes, backslashes and control characters. -/
theorem isVerbatim_ofString_iff (s : String) :
    isVerbatim (Bytes.ofString s) = true ↔
      ∀ c ∈ s.toList, c ≠ '"' ∧ c ≠ '\\' ∧ 0x20 ≤ c.toNat := by
  rw [Bytes.ofString_eq, Bytes.ofChars, isVerbatim_iff]
  simp only [List.mem_flatMap]
  constructor
  · intro h c hc
    exact (needsEscape_encode_iff c).1 fun b hb => h b ⟨c, hc, hb⟩
  · rintro h b ⟨c, hc, hb⟩
    exact (needsEscape_encode_iff c).2 (h c hc) b hb

/-! ## String literals -/

theorem IsStringText.append {bs cs : Bytes} (hb : IsStringText bs) (hc : IsStringText cs) :
    IsStringText (bs ++ cs) := by
  induction hb with
  | nil => exact hc
  | char hq hs hc _ ih => rw [List.append_assoc]; exact .char hq hs hc ih
  | letter hl _ ih => exact .letter hl ih
  | digits hd _ ih => exact .digits hd ih

theorem IsStringText.enclosed {bs : Bytes} (h : IsStringText bs) : Enclosed bs := by
  induction h with
  | nil => exact .nil
  | char hq hs _ _ ih =>
    exact (Enclosed.of_forall fun b hb =>
      ⟨Bytes.ne_of_mem_encode (a := '"') (by decide) hq hb,
        Bytes.ne_of_mem_encode (a := '\\') (by decide) hs hb⟩).append ih
  | letter _ _ ih => exact .pair _ ih
  | @digits a b c d bs hd _ ih =>
    have hplain : ∀ x ∈ [a, b, c, d], x ≠ Byte.quote ∧ x ≠ Byte.backslash := by
      intro x hx
      constructor <;> rintro rfl <;> exact absurd (hd _ hx) (by decide)
    exact .pair 0x75 ((Enclosed.of_forall hplain).append ih)

theorem isStringText_escape_encode (hs : style.Sound) (c : Char) :
    IsStringText (escape style (String.utf8EncodeChar c)) := by
  by_cases hverbatim : ∀ b ∈ String.utf8EncodeChar c, needsEscape b = false
  · obtain ⟨hquote, hbackslash, hcontrol⟩ := (needsEscape_encode_iff c).1 hverbatim
    rw [escape_of_forall hs hverbatim, ← List.append_nil (String.utf8EncodeChar c)]
    exact .char hquote hbackslash hcontrol .nil
  · have hc : c.toNat < 0x80 := by
      refine Nat.lt_of_not_le ?_
      exact fun hle => hverbatim (needsEscape_of_mem_encode hle)
    rw [Bytes.encode_ascii hc, List.forall_mem_singleton] at hverbatim
    rw [Bytes.encode_ascii hc, escape_cons, escape_nil, List.append_nil]
    rcases escapeByte_cases hs (UInt8.ofNat c.toNat) with ⟨hn, _⟩ | ⟨l, hl, _, he⟩ | ⟨hlt, he⟩
    · exact absurd hn hverbatim
    · rw [he]
      exact .letter (mem_escapeLetters hl) .nil
    · rw [he]
      have hhigh := (hexDigit_cases (halves_lt hlt).1).2.2
      have hlow := (hexDigit_cases (halves_lt hlt).2).2.2
      refine .digits (fun x hx => ?_) .nil
      simp only [List.mem_cons, List.not_mem_nil, or_false] at hx
      rcases hx with rfl | rfl | rfl | rfl
      · decide
      · decide
      · rw [hhigh]; rfl
      · rw [hlow]; rfl

/-- The escaped form of a text may stand in a string literal. -/
theorem isStringText_escape (hs : style.Sound) (s : String) :
    IsStringText (escape style (Bytes.ofString s)) := by
  rw [Bytes.ofString_eq]
  induction s.toList with
  | nil => exact .nil
  | cons c cs ih =>
    rw [Bytes.ofChars_cons, escape_append]
    exact (isStringText_escape_encode hs c).append ih

end GoalProgress.Json
