import GoalProgress.Proofs.Json.Unambiguous

/-!
# Literals and numerals are read back

The reader of string literals takes the escapes back that the printer puts in, one byte after the
other. The reader of numerals stops at the first byte that may follow a value, and the number that
it finds in the digits of an integer is this integer.
-/
namespace GoalProgress.Json

/-! ## String literals -/

variable {style : EscapeStyle}

theorem readStringFrom_cons {lenient : Bool} {s s' : StringState} {b : UInt8} {known : Bytes}
    (hend : s ≠ .plain ∨ b ≠ Byte.quote) (hnext : s.next lenient b = .ok (s', known))
    (acc rest : Bytes) :
    readStringFrom lenient s acc (b :: rest) =
      readStringFrom lenient s' (known.reverse ++ acc) rest := by
  rw [readStringFrom, if_neg (fun h => hend.elim (· h.1) (· h.2)), hnext]

/-- The digits of a control character stand for it. -/
theorem afterUnicode_hexDigits {b : UInt8} (hb : b < 0x20) :
    afterUnicode false none
        [Byte.zero, Byte.zero, Byte.hexDigit (b / 16), Byte.hexDigit (b % 16)] =
      .ok (.plain, [b]) := by
  have hlt : b.toNat < 0x20 := hb
  have hhigh := (hexDigit_cases (halves_lt hb).1).2.2
  have hlow := (hexDigit_cases (halves_lt hb).2).2.2
  have hzero : Byte.hexValue? Byte.zero = some 0 := by decide
  have hnumber : hexNumber? [Byte.zero, Byte.zero, Byte.hexDigit (b / 16), Byte.hexDigit (b % 16)] =
      some b.toNat := by
    simp [hexNumber?, hhigh, hlow, hzero]
    omega
  have hpoint : encodePoint b.toNat = [b] := by
    have hchar := Bytes.toNat_ofNat_ascii (n := b.toNat) (by omega)
    rw [encodePoint, Bytes.ofString_eq, Char.toString, String.toList_singleton]
    rw [Bytes.ofChars_cons, Bytes.ofChars_nil, List.append_nil, Bytes.encode_ascii (by omega),
      hchar, UInt8.ofNat_toNat]
  have hpair : ¬ (0xD800 ≤ b.toNat ∧ b.toNat < 0xDC00) := by omega
  have hhalf : ¬ (0xDC00 ≤ b.toNat ∧ b.toNat < 0xE000) := by omega
  simp [afterUnicode, hnumber, hpair, hhalf, hpoint]

theorem readStringFrom_escapeByte (hs : style.Sound) (b : UInt8) (acc rest : Bytes) :
    readStringFrom false .plain acc (escapeByte style b ++ rest) =
      readStringFrom false .plain (b :: acc) rest := by
  have hbackslash : StringState.next false .plain Byte.backslash = .ok (.escape, []) := rfl
  rcases escapeByte_cases hs b with ⟨hb, he⟩ | ⟨letter, hletter, _, he⟩ | ⟨hb, he⟩
  · simp only [needsEscape, Bool.or_eq_false_iff, beq_eq_false_iff_ne,
      decide_eq_false_iff_not] at hb
    have hnext : StringState.next false .plain b = .ok (.plain, [b]) := by
      rw [StringState.next, if_neg hb.1.2, if_neg hb.2]
    rw [he]
    exact readStringFrom_cons (.inr hb.1.1) hnext acc rest
  · have hu : letter ≠ 0x75 := by
      rintro rfl
      cases hletter
    have hnext : StringState.next false .escape letter = .ok (.plain, [b]) := by
      rw [StringState.next, if_neg hu, hletter]
    rw [he]
    exact (readStringFrom_cons (.inr (by decide)) hbackslash acc _).trans
      (readStringFrom_cons (.inl (by simp)) hnext acc rest)
  · have hmarker : StringState.next false .escape 0x75 = .ok (.digits none [], []) := rfl
    have hfirst : StringState.next false (.digits none []) Byte.zero =
        .ok (.digits none [Byte.zero], []) := rfl
    have hsecond : StringState.next false (.digits none [Byte.zero]) Byte.zero =
        .ok (.digits none [Byte.zero, Byte.zero], []) := rfl
    have hthird (d : UInt8) : StringState.next false (.digits none [Byte.zero, Byte.zero]) d =
        .ok (.digits none [Byte.zero, Byte.zero, d], []) := rfl
    have hlast : StringState.next false
        (.digits none [Byte.zero, Byte.zero, Byte.hexDigit (b / 16)]) (Byte.hexDigit (b % 16)) =
      .ok (.plain, [b]) := afterUnicode_hexDigits hb
    rw [he]
    simp only [List.cons_append, List.nil_append]
    rw [readStringFrom_cons (.inr (by decide)) hbackslash,
      readStringFrom_cons (.inl (by simp)) hmarker, readStringFrom_cons (.inl (by simp)) hfirst,
      readStringFrom_cons (.inl (by simp)) hsecond, readStringFrom_cons (.inl (by simp)) (hthird _),
      readStringFrom_cons (.inl (by simp)) hlast]
    rfl

/-- The escapes of a text are undone one after the other. -/
theorem readStringFrom_escape (hs : style.Sound) (bs acc rest : Bytes) :
    readStringFrom false .plain acc (escape style bs ++ rest) =
      readStringFrom false .plain (bs.reverse ++ acc) rest := by
  induction bs generalizing acc with
  | nil => rfl
  | cons b bs ih =>
    rw [escape_cons, List.append_assoc, readStringFrom_escapeByte hs, ih, List.reverse_cons,
      List.append_assoc, List.singleton_append]

/-- **A text is read back from its literal**, whatever follows the literal. -/
theorem readString_escape (hs : style.Sound) (s : String) (rest : Bytes) :
    readString (escape style (Bytes.ofString s) ++ Byte.quote :: rest) = .ok (s, rest) := by
  have hquote (acc : Bytes) :
      readStringFrom false .plain acc (Byte.quote :: rest) = .ok (acc, rest) := by
    rw [readStringFrom, if_pos ⟨rfl, rfl⟩]
  rw [readString, readStringFrom_escape hs, hquote]
  simp [bind, Except.bind, pure, Except.pure]

/-! ## Numerals -/

theorem not_digit_of_delimited {rest : Bytes} (h : Delimited rest) :
    rest.takeWhile Byte.isDigit = [] ∧ rest.dropWhile Byte.isDigit = rest := by
  cases rest with
  | nil => exact ⟨rfl, rfl⟩
  | cons b rest =>
    have hb : Byte.isDigit b = false := by
      rw [← Bool.not_eq_true]
      intro hdigit
      exact absurd (h b rfl) (by simp [isDelimiter_of_isDigit hdigit])
    simp [hb]

theorem readDigits_append {ds rest : Bytes} (hds : IsDigits ds) (hrest : Delimited rest) :
    readDigits (ds ++ rest) = .ok (ds, rest) := by
  obtain ⟨htake, hdrop⟩ := not_digit_of_delimited hrest
  have hprefix : (ds ++ rest).takeWhile Byte.isDigit = ds := by
    rw [List.takeWhile_append_of_pos hds.2, htake, List.append_nil]
  have hsuffix : (ds ++ rest).dropWhile Byte.isDigit = rest := by
    rw [List.dropWhile_append_of_pos hds.2, hdrop]
  rw [readDigits, hprefix, hsuffix]
  cases ds with
  | nil => exact absurd rfl hds.1
  | cons d ds => rfl

theorem readFraction_of_delimited {rest : Bytes} (h : Delimited rest) :
    readFraction rest = .ok ([], rest) := by
  cases rest with
  | nil => rfl
  | cons b rest =>
    have hb : b ≠ Byte.point := by
      rintro rfl
      exact absurd (h _ rfl) (by decide)
    rw [readFraction, if_neg hb]

theorem readExponent_of_delimited {rest : Bytes} (h : Delimited rest) :
    readExponent rest = .ok (none, rest) := by
  cases rest with
  | nil => rfl
  | cons b rest =>
    have hb : ¬ (b = 0x65 ∨ b = 0x45) := by
      rintro (rfl | rfl) <;> exact absurd (h _ rfl) (by decide)
    rw [readExponent, if_neg hb]

/-- Digits without a leading zero are the whole part of a numeral. -/
theorem readWhole_digits (n : Nat) {rest : Bytes} (h : Delimited rest) :
    readWhole (Decimal.digits n ++ rest) = .ok (Decimal.digits n, rest) := by
  have hzero : ¬ ((Decimal.digits n).head? = some Byte.zero ∧ 1 < (Decimal.digits n).length) := by
    rintro ⟨hhead, hlength⟩
    rw [Decimal.eq_zero_of_head?_digits hhead, Decimal.digits_of_lt (by decide)] at hlength
    exact absurd hlength (by decide)
  rw [readWhole, readDigits_append (isDigits_digits n) h]
  simp only [bind, Except.bind]
  rw [if_neg hzero]
  rfl

/-- A numeral without fraction and exponent is read back. -/
theorem readNumeral_print (negative : Bool) (n : Nat) {rest : Bytes} (h : Delimited rest) :
    readNumeral ((Numeral.print ⟨negative, Decimal.digits n, [], none⟩) ++ rest) =
      .ok (⟨negative, Decimal.digits n, [], none⟩, rest) := by
  have hread (text : Bytes) (hwhole : (if text.head? = some Byte.minus then text.drop 1 else text) =
      Decimal.digits n ++ rest) : readNumeral text =
        .ok (⟨decide (text.head? = some Byte.minus), Decimal.digits n, [], none⟩, rest) := by
    rw [readNumeral]
    simp only [hwhole, readWhole_digits n h, bind, Except.bind, readFraction_of_delimited h,
      readExponent_of_delimited h]
    rfl
  cases negative with
  | true =>
    have htext : Numeral.print ⟨true, Decimal.digits n, [], none⟩ ++ rest =
        Byte.minus :: (Decimal.digits n ++ rest) := by
      simp [Numeral.print]
    rw [htext, hread _ (by simp)]
    simp
  | false =>
    have htext : Numeral.print ⟨false, Decimal.digits n, [], none⟩ ++ rest =
        Decimal.digits n ++ rest := by
      simp [Numeral.print]
    have hhead : (Decimal.digits n ++ rest).head? ≠ some Byte.minus := by
      obtain ⟨d, ds, hds⟩ := List.exists_cons_of_ne_nil (Decimal.digits_ne_nil n)
      have hdigit := Decimal.isDigit_of_mem_digits (hds ▸ List.mem_cons_self : d ∈ Decimal.digits n)
      rw [hds, List.cons_append, List.head?_cons, ne_eq, Option.some.injEq]
      rintro rfl
      exact absurd hdigit (by decide)
    rw [htext, hread _ (if_neg hhead), decide_eq_false hhead]

/-- An integer of at most 64 bits is the number of its numeral. -/
theorem number?_ofInt {n : Int} (hmin : Int64.minValue.toInt ≤ n) (hmax : n ≤ Numeral.maxWord) :
    (Numeral.ofInt n).number? = some (.integer n) := by
  obtain ⟨m, hm⟩ : ∃ m, n.natAbs = m := ⟨_, rfl⟩
  have hvalue : Decimal.value (Decimal.digits m) = m := Decimal.value_digits m
  rw [Numeral.number?, Numeral.ofInt, hm]
  by_cases hneg : n < 0
  · have habs : -(m : Int) = n := by omega
    have hpos : 0 < m := by omega
    simpa [hneg, hvalue, habs, hpos] using hmin
  · have habs : (m : Int) = n := by omega
    have hle : m ≤ Numeral.maxWord := by omega
    simp [hneg, hvalue, habs, hle]

end GoalProgress.Json
