import GoalProgress.Bytes

/-!
# The bytes of a text

The encoding of a text is the concatenation of the encodings of its characters. An ASCII character
is the one byte with its number, and all bytes of any other character are above the ASCII range, so
a search for an ASCII byte sees characters only.
-/
namespace GoalProgress.Bytes

/-- The encoding of a list of characters. -/
def ofChars (cs : List Char) : Bytes := cs.flatMap String.utf8EncodeChar

@[simp] theorem ofChars_nil : ofChars [] = [] := rfl

@[simp] theorem ofChars_cons (c : Char) (cs : List Char) :
    ofChars (c :: cs) = String.utf8EncodeChar c ++ ofChars cs := by
  simp [ofChars]

@[simp] theorem ofChars_append (cs ds : List Char) :
    ofChars (cs ++ ds) = ofChars cs ++ ofChars ds := by
  simp [ofChars]

theorem ofString_eq (s : String) : ofString s = ofChars s.toList := by
  have h : s.toByteArray = (ofChars s.toList).toByteArray := by
    rw [← String.utf8Encode_toList]; rfl
  rw [ofString, h, List.toList_data_toByteArray]

@[simp] theorem ofString_ofList (cs : List Char) : ofString (String.ofList cs) = ofChars cs := by
  rw [ofString_eq, String.toList_ofList]

theorem ofString_append (s t : String) : ofString (s ++ t) = ofString s ++ ofString t := by
  rw [ofString_eq, String.toList_append, ofChars_append, ← ofString_eq, ← ofString_eq]

theorem toString?_ofChars (cs : List Char) :
    toString? (ofChars cs) = some (String.ofList cs) := by
  rw [← ofString_ofList, toString?_ofString]

/-- Only the encoding of a text is read as that text. -/
theorem toString?_eq_some_iff {bs : Bytes} {s : String} :
    toString? bs = some s ↔ bs = ofString s := by
  constructor
  · intro h
    rw [toString?, String.fromUTF8?] at h
    split at h
    · cases h
      rfl
    · cases h
  · rintro rfl
    exact toString?_ofString s

theorem ofString_injective {s t : String} (h : ofString s = ofString t) : s = t := by
  have hs := toString?_ofString s
  rw [h, toString?_ofString] at hs
  exact (Option.some.inj hs).symm

/-! ## Single characters -/

theorem encode_ascii {c : Char} (h : c.toNat < 0x80) :
    String.utf8EncodeChar c = [UInt8.ofNat c.toNat] := by
  have hle : c.val.toNat ≤ 0x7F := Nat.le_of_lt_succ h
  simp only [String.utf8EncodeChar, hle, if_true]
  rfl

/-- No byte of a character beyond ASCII is an ASCII byte. -/
theorem le_of_mem_encode {c : Char} (h : 0x80 ≤ c.toNat) {b : UInt8}
    (hb : b ∈ String.utf8EncodeChar c) : 0x80 ≤ b.toNat := by
  have hlt : ¬ c.val.toNat ≤ 0x7F := by
    have : c.val.toNat = c.toNat := rfl
    omega
  simp only [String.utf8EncodeChar, hlt, if_false] at hb
  split at hb
  · simp only [List.mem_cons, List.not_mem_nil, or_false] at hb
    rcases hb with rfl | rfl <;> simp only [UInt8.toNat_ofNat'] <;> omega
  · split at hb
    · simp only [List.mem_cons, List.not_mem_nil, or_false] at hb
      rcases hb with rfl | rfl | rfl <;> simp only [UInt8.toNat_ofNat'] <;> omega
    · simp only [List.mem_cons, List.not_mem_nil, or_false] at hb
      rcases hb with rfl | rfl | rfl | rfl <;> simp only [UInt8.toNat_ofNat'] <;> omega

theorem toNat_ofNat_ascii {n : Nat} (h : n < 0x80) : (Char.ofNat n).toNat = n := by
  have hv : n.isValidChar := Or.inl (by omega)
  rw [Char.ofNat, dif_pos hv]
  rfl

/-- ASCII bytes are the encoding of the characters with their numbers. -/
theorem ofChars_map_ofNat {bs : Bytes} (h : ∀ b ∈ bs, b.toNat < 0x80) :
    ofChars (bs.map fun b => Char.ofNat b.toNat) = bs := by
  induction bs with
  | nil => rfl
  | cons b bs ih =>
    have hb : (Char.ofNat b.toNat).toNat = b.toNat := toNat_ofNat_ascii (h b (by simp))
    have hlt : (Char.ofNat b.toNat).toNat < 0x80 := by rw [hb]; exact h b (by simp)
    rw [List.map_cons, ofChars_cons, encode_ascii hlt, hb, UInt8.ofNat_toNat,
      ih fun x hx => h x (by simp [hx])]
    rfl

/-- No other character has an ASCII character's byte in its encoding. -/
theorem ne_of_mem_encode {c a : Char} (ha : a.toNat < 0x80) (hc : c ≠ a) {b : UInt8}
    (hb : b ∈ String.utf8EncodeChar c) : b ≠ UInt8.ofNat a.toNat := by
  rintro rfl
  have ha' : (UInt8.ofNat a.toNat).toNat = a.toNat :=
    UInt8.toNat_ofNat_of_lt' (by simp only [UInt8.size]; omega)
  by_cases hlt : c.toNat < 0x80
  · rw [encode_ascii hlt, List.mem_singleton] at hb
    have hc' : (UInt8.ofNat c.toNat).toNat = c.toNat :=
      UInt8.toNat_ofNat_of_lt' (by simp only [UInt8.size]; omega)
    rw [hb, hc'] at ha'
    exact hc (Char.toNat_inj.1 ha')
  · have := le_of_mem_encode (Nat.le_of_not_lt hlt) hb
    omega

theorem mem_ofChars_iff {a : Char} (ha : a.toNat < 0x80) (cs : List Char) :
    UInt8.ofNat a.toNat ∈ ofChars cs ↔ a ∈ cs := by
  rw [ofChars, List.mem_flatMap]
  constructor
  · rintro ⟨c, hc, hb⟩
    by_cases h : c = a
    · rwa [h] at hc
    · exact absurd rfl (ne_of_mem_encode ha h hb)
  · intro h
    exact ⟨a, h, by rw [encode_ascii ha]; exact List.mem_singleton_self _⟩

/-! ## Searching the bytes of a text -/

section Search

variable {p : UInt8 → Bool} {q : Char → Bool}

/-- **A search among the bytes stops between characters**, where no character passes the search with
only some of its bytes. -/
theorem takeWhile_ofChars_of (hpass : ∀ c, q c = true → ∀ b ∈ String.utf8EncodeChar c, p b = true)
    (hstop : ∀ c, q c = false → ∃ b bs, String.utf8EncodeChar c = b :: bs ∧ p b = false)
    (cs : List Char) :
    (ofChars cs).takeWhile p = ofChars (cs.takeWhile q) ∧
      (ofChars cs).dropWhile p = ofChars (cs.dropWhile q) := by
  induction cs with
  | nil => exact ⟨rfl, rfl⟩
  | cons c cs ih =>
    cases hc : q c with
    | true =>
      rw [ofChars_cons, List.takeWhile_append_of_pos (hpass c hc),
        List.dropWhile_append_of_pos (hpass c hc), ih.1, ih.2, List.takeWhile_cons_of_pos hc,
        List.dropWhile_cons_of_pos hc, ofChars_cons]
      exact ⟨rfl, rfl⟩
    | false =>
      obtain ⟨b, bs, hencode, hb⟩ := hstop c hc
      have hb' : ¬ p b = true := by simp [hb]
      have hc' : ¬ q c = true := by simp [hc]
      rw [List.takeWhile_cons_of_neg hc', List.dropWhile_cons_of_neg hc', ofChars_cons, hencode,
        List.cons_append, List.takeWhile_cons_of_neg hb', List.dropWhile_cons_of_neg hb']
      exact ⟨rfl, rfl⟩

end Search

/-- The bytes before the first occurrence of an ASCII character encode the characters before it. -/
theorem takeWhile_ofChars {a : Char} (ha : a.toNat < 0x80) (cs : List Char) :
    (ofChars cs).takeWhile (· != UInt8.ofNat a.toNat) = ofChars (cs.takeWhile (· != a)) := by
  refine (takeWhile_ofChars_of (fun c hc b hb => ?_) (fun c hc => ?_) cs).1
  · exact bne_iff_ne.2 (ne_of_mem_encode ha (bne_iff_ne.1 hc) hb)
  · obtain rfl : c = a := by simpa using hc
    exact ⟨_, [], encode_ascii ha, bne_self_eq_false _⟩

end GoalProgress.Bytes
