import GoalProgress.Json.Escaped
import GoalProgress.Proofs.Json.EscapedText
import GoalProgress.Proofs.Json.RoundTrip
import GoalProgress.Proofs.Scan.Balanced

/-!
# The escaped form of a text

A byte that has to be escaped is a character of its own. So the search for the first one stops
between two characters, the part that is copied would be left as it is by the escapes, and the
escaped form is that of the whole text, character by character.

## Main definitions

* `Json.isPlainChar`: whether a character is its own escaped form.
-/
namespace GoalProgress.Json

/-! ## Characters -/

/-- Whether a character stands in a string literal as it is. -/
def isPlainChar (c : Char) : Bool := (String.utf8EncodeChar c).all (!needsEscape ·)

theorem isPlainChar_iff (c : Char) :
    isPlainChar c = true ↔ ∀ b ∈ String.utf8EncodeChar c, needsEscape b = false := by
  simp [isPlainChar]

/-- A character that does not stand as it is has to be escaped from its first byte on. -/
theorem exists_encode_eq_needsEscape {c : Char} (h : isPlainChar c = false) :
    ∃ b bs, String.utf8EncodeChar c = b :: bs ∧ needsEscape b = true := by
  have hneeds : ¬ ∀ b ∈ String.utf8EncodeChar c, needsEscape b = false := by
    rw [← isPlainChar_iff, h]
    exact Bool.false_ne_true
  have hascii : c.toNat < 0x80 := Nat.lt_of_not_le fun hle =>
    hneeds (needsEscape_of_mem_encode hle)
  rw [Bytes.encode_ascii hascii, List.forall_mem_singleton, Bool.not_eq_false] at hneeds
  exact ⟨_, [], Bytes.encode_ascii hascii, hneeds⟩

/-- The search for the first byte that has to be escaped stops between characters. -/
theorem split_ofChars (cs : List Char) :
    (Bytes.ofChars cs).takeWhile (!needsEscape ·) = Bytes.ofChars (cs.takeWhile isPlainChar) ∧
      (Bytes.ofChars cs).dropWhile (!needsEscape ·) = Bytes.ofChars (cs.dropWhile isPlainChar) := by
  refine Bytes.takeWhile_ofChars_of (fun c hc b hb => ?_) (fun c hc => ?_) cs
  · rw [(isPlainChar_iff c).1 hc b hb, Bool.not_false]
  · obtain ⟨b, bs, hencode, hb⟩ := exists_encode_eq_needsEscape hc
    exact ⟨b, bs, hencode, by rw [hb, Bool.not_true]⟩

/-- The escapes of the characters are those of their bytes. -/
theorem escapeCharacter_eq (c : Char) : escapeCharacter c = escapeChar .short c := by
  have hascii : ∀ n < 0x80, escapeCharacter (Char.ofNat n) = escapeChar .short (Char.ofNat n) := by
    decide
  by_cases hc : c.toNat < 0x80
  · have hchar := hascii c.toNat hc
    rwa [Char.ofNat_toNat] at hchar
  · have hne (a : Char) (ha : a.toNat < 0x80) : c ≠ a := by
      rintro rfl
      exact hc ha
    rw [escapeChar, if_neg hc, escapeCharacter, if_neg (hne _ (by decide)),
      if_neg (hne _ (by decide)), if_neg (hne _ (by decide)), if_neg (hne _ (by decide)),
      if_neg (hne _ (by decide)), if_neg (by omega)]

/-! ## Texts -/

variable {style : EscapeStyle}

theorem escapeText_append (s t : String) :
    escapeText style (s ++ t) = escapeText style s ++ escapeText style t := by
  rw [escapeText, String.toList_append, List.flatMap_append, String.ofList_append]
  rfl

/-- A text can be cut before its first byte that has to be escaped, and the front needs no
escapes. -/
theorem exists_splitAt?_eq {s : String} {first : Nat}
    (h : (Bytes.ofString s).findIdx? needsEscape = some first) :
    ∃ front back, splitAt? s first = some (front, back) ∧ front ++ back = s ∧
      isVerbatim (Bytes.ofString front) = true := by
  have hsearch := split_ofChars s.toList
  have hfirst := (List.findIdx?_eq_some_iff_findIdx_eq.1 h).2
  rw [List.takeWhile_eq_take_findIdx_not, List.dropWhile_eq_drop_findIdx_not] at hsearch
  simp only [Bool.not_not, ← Bytes.ofString_eq, hfirst] at hsearch
  refine ⟨String.ofList (s.toList.takeWhile isPlainChar),
    String.ofList (s.toList.dropWhile isPlainChar), ?_, ?_, ?_⟩
  · rw [splitAt?, hsearch.1, hsearch.2, Bytes.toString?_ofChars, Bytes.toString?_ofChars]
    rfl
  · rw [← String.ofList_append, List.takeWhile_append_dropWhile, String.ofList_toList]
  · rw [Bytes.ofString_ofList, isVerbatim_iff, Bytes.ofChars]
    intro b hb
    obtain ⟨c, hc, hb⟩ := List.mem_flatMap.1 hb
    exact (isPlainChar_iff c).1 (List.all_eq_true.1 List.all_takeWhile c hc) b hb

/-- **The escaped form is that of the whole text**, and it is borrowed if nothing in the text has to
be escaped. -/
theorem escaped?_eq (s : String) :
    escaped? s = some (if isVerbatim (Bytes.ofString s) then .borrowed s
      else .owned (escapeText .short s)) := by
  have hnone : (Bytes.ofString s).findIdx? needsEscape = none ↔
      isVerbatim (Bytes.ofString s) = true := by
    rw [isVerbatim_iff, List.findIdx?_eq_none_iff]
  cases h : (Bytes.ofString s).findIdx? needsEscape with
  | none => rw [escaped?, h, if_pos (hnone.1 h)]
  | some first =>
    have hverbatim : ¬ isVerbatim (Bytes.ofString s) = true := by
      rw [← hnone, h]
      exact nofun
    obtain ⟨front, back, hsplit, hs, hfront⟩ := exists_splitAt?_eq h
    have hback : escapeText .short s =
        front ++ String.ofList (back.toList.flatMap escapeCharacter) := by
      rw [← hs, escapeText_append, (escapeText_eq_self_iff EscapeStyle.short_sound front).2 hfront,
        escapeText, funext escapeCharacter_eq]
    rw [escaped?, h, if_neg hverbatim, hback]
    exact congrArg (Option.map _) hsplit

/-- Every text has an escaped form, and it is borrowed exactly if it is the text. -/
theorem exists_escaped?_eq (s : String) :
    ∃ e, escaped? s = some e ∧ e.text = escapeText .short s ∧
      (e.isBorrowed = true ↔ e.text = s) := by
  have hself := escapeText_eq_self_iff EscapeStyle.short_sound s
  refine ⟨_, escaped?_eq s, ?_⟩
  by_cases hverbatim : isVerbatim (Bytes.ofString s) = true
  · rw [if_pos hverbatim]
    exact ⟨(hself.2 hverbatim).symm, iff_of_true rfl rfl⟩
  · rw [if_neg hverbatim]
    refine ⟨rfl, iff_of_false Bool.false_ne_true ?_⟩
    rwa [Escaped.text, hself]

/-- **Escapes are undone by a reader and not seen by a scanner.** Every text has an escaped form,
which is borrowed exactly if it is the text, and this exactly if the text has no quotes, backslashes
and control characters. Between quotes it is a literal from which the text is read back, whatever
follows; no byte of the literal is structure, and a scanner that comes from outside is outside again
behind it. Texts one after the other are escaped one after the other. -/
theorem escaped?_undone_and_silent :
    (∀ s : String, ∃ e, escaped? s = some e ∧
      (∀ depth rest, Value.read depth
        (Byte.quote :: (Bytes.ofString e.text ++ Byte.quote :: rest)) = .ok (.string s, rest)) ∧
      (e.isBorrowed = true ↔ e.text = s) ∧
      (e.text = s ↔ ∀ c ∈ s.toList, c ≠ '"' ∧ c ≠ '\\' ∧ 0x20 ≤ c.toNat) ∧
      Scan.Silent .outside (Byte.quote :: (Bytes.ofString e.text ++ [Byte.quote])) ∧
      Scan.Literal.outside.after (Byte.quote :: (Bytes.ofString e.text ++ [Byte.quote])) =
        .outside) ∧
    ∀ s t : String, ∃ d e, escaped? s = some d ∧ escaped? t = some e ∧
      (escaped? (s ++ t)).map Escaped.text = some (d.text ++ e.text) := by
  have hs := EscapeStyle.short_sound
  refine ⟨fun s => ?_, fun s t => ?_⟩
  · obtain ⟨e, he, htext, hborrowed⟩ := exists_escaped?_eq s
    have hbytes : Bytes.ofString e.text = escape .short (Bytes.ofString s) := by
      rw [htext, ofString_escapeText hs]
    have henclosed : Enclosed (Bytes.ofString e.text) := by
      rw [hbytes]
      exact (isStringText_escape hs s).enclosed
    refine ⟨e, he, fun depth rest => ?_, hborrowed, ?_, Scan.silent_literal henclosed,
      Scan.after_literal henclosed⟩
    · rw [hbytes, Value.read_string, readString_escape hs]
      rfl
    · rw [htext, escapeText_eq_self_iff hs, isVerbatim_ofString_iff]
  · obtain ⟨d, hd, hdtext, -⟩ := exists_escaped?_eq s
    obtain ⟨e, he, hetext, -⟩ := exists_escaped?_eq t
    obtain ⟨f, hf, hftext, -⟩ := exists_escaped?_eq (s ++ t)
    refine ⟨d, e, hd, he, ?_⟩
    rw [hf, Option.map_some, hftext, escapeText_append, hdtext, hetext]

end GoalProgress.Json
