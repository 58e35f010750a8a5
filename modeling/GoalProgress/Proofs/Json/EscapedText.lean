import GoalProgress.Proofs.Json.Escape

/-!
# The escaped form as a text

Escaping byte by byte and escaping character by character come to the same: the escaped form of a
text is the encoding of a text again. It is the text itself exactly if nothing in it has to be
escaped, and it has no quote unless the text has one.

## Main definitions

* `Json.escapeText`: the escaped form as a text.
-/
namespace GoalProgress.Json

variable {style : EscapeStyle}

/-- One character inside a string literal. -/
def escapeChar (style : EscapeStyle) (c : Char) : List Char :=
  if c.toNat < 0x80 then
    (escapeByte style (UInt8.ofNat c.toNat)).map fun b => Char.ofNat b.toNat
  else [c]

/-- The form of a text between the quotes of a string literal. -/
def escapeText (style : EscapeStyle) (s : String) : String :=
  String.ofList (s.toList.flatMap (escapeChar style))

theorem escapeByte_ascii (hs : style.Sound) {b : UInt8} (hb : b.toNat < 0x80) :
    ∀ x ∈ escapeByte style b, x.toNat < 0x80 := by
  intro x hx
  rcases escapeByte_cases hs b with ⟨_, he⟩ | ⟨letter, hl, _, he⟩ | ⟨hlt, he⟩ <;> rw [he] at hx
  · rw [List.mem_singleton.1 hx]; exact hb
  · have hmem : ∀ l ∈ Byte.backslash :: escapeLetters, decide (l.toNat < 0x80) = true :=
      List.all_eq_true.1 rfl
    refine of_decide_eq_true (hmem x ?_)
    rcases List.mem_cons.1 hx with rfl | hx
    · simp
    · rw [List.mem_singleton.1 hx]
      exact List.mem_cons_of_mem _ (mem_escapeLetters hl)
  · simp only [List.mem_cons, List.not_mem_nil, or_false] at hx
    rcases hx with rfl | rfl | rfl | rfl | rfl | rfl
    · decide
    · decide
    · decide
    · decide
    · exact (hexDigit_cases (halves_lt hlt).1).2.1
    · exact (hexDigit_cases (halves_lt hlt).2).2.1

theorem ofChars_escapeChar (hs : style.Sound) (c : Char) :
    Bytes.ofChars (escapeChar style c) = escape style (String.utf8EncodeChar c) := by
  by_cases hc : c.toNat < 0x80
  · have hn : (UInt8.ofNat c.toNat).toNat < 0x80 := by
      rw [UInt8.toNat_ofNat_of_lt' (by simp only [UInt8.size]; omega)]; exact hc
    rw [Bytes.encode_ascii hc, escapeChar, if_pos hc,
      Bytes.ofChars_map_ofNat (escapeByte_ascii hs hn), escape_cons, escape_nil, List.append_nil]
  · have hverbatim := needsEscape_of_mem_encode (Nat.le_of_not_lt hc)
    rw [escape_of_forall hs hverbatim, escapeChar, if_neg hc, Bytes.ofChars_cons,
      Bytes.ofChars_nil, List.append_nil]

@[simp] theorem ofString_escapeText (hs : style.Sound) (s : String) :
    Bytes.ofString (escapeText style s) = escape style (Bytes.ofString s) := by
  rw [escapeText, Bytes.ofString_ofList, Bytes.ofString_eq]
  induction s.toList with
  | nil => rfl
  | cons c cs ih =>
    rw [List.flatMap_cons, Bytes.ofChars_append, ih, ofChars_escapeChar hs, Bytes.ofChars_cons,
      escape_append]

/-- Only quotes are escaped with a quote. -/
theorem quote_mem_escapeByte (hs : style.Sound) {b : UInt8} (h : Byte.quote ∈ escapeByte style b) :
    b = Byte.quote := by
  rcases escapeByte_cases hs b with ⟨_, he⟩ | ⟨letter, hl, _, he⟩ | ⟨hlt, he⟩ <;> rw [he] at h
  · exact (List.mem_singleton.1 h).symm
  · have hletter : letter = Byte.quote := by
      rcases List.mem_cons.1 h with h | h
      · exact absurd h (by decide)
      · exact (List.mem_singleton.1 h).symm
    rw [hletter, show unescape? Byte.quote = some Byte.quote by decide, Option.some.injEq] at hl
    exact hl.symm
  · simp only [List.mem_cons, List.not_mem_nil, or_false] at h
    rcases h with h | h | h | h | h | h
    · exact absurd h (by decide)
    · exact absurd h (by decide)
    · exact absurd h (by decide)
    · exact absurd h (by decide)
    · exact absurd h.symm (hexDigit_cases (halves_lt hlt).1).1
    · exact absurd h.symm (hexDigit_cases (halves_lt hlt).2).1

theorem quote_mem_of_mem_escapeText (hs : style.Sound) {s : String}
    (h : '"' ∈ (escapeText style s).toList) : '"' ∈ s.toList := by
  rw [← Bytes.mem_ofChars_iff (by decide), ← Bytes.ofString_eq, ofString_escapeText hs, escape,
    List.mem_flatMap] at h
  obtain ⟨b, hb, hquote⟩ := h
  rw [quote_mem_escapeByte hs hquote, Bytes.ofString_eq] at hb
  exact (Bytes.mem_ofChars_iff (a := '"') (by decide) _).1 hb

theorem escapeText_eq_self_iff (hs : style.Sound) (s : String) :
    escapeText style s = s ↔ isVerbatim (Bytes.ofString s) = true := by
  rw [← escape_eq_self_iff hs, ← ofString_escapeText hs]
  exact ⟨fun h => congrArg Bytes.ofString h, Bytes.ofString_injective⟩

end GoalProgress.Json
