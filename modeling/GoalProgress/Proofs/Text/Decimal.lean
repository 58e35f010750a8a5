import GoalProgress.Decimal
import GoalProgress.Proofs.Text.Encoding

/-!
# Decimal digits

Numbers are written with digits only, and without a leading zero unless they are filled up to a
width. The digits of a number are given from its last digit on, and so is the number that is read
back from them; leading zeros do not count. So the digits tell the number, and they are as many as
the power of ten that exceeds it.
-/
namespace GoalProgress.Decimal

theorem isDigit_digit (n : Nat) : Byte.isDigit (digit n) = true := by
  have hall : ∀ d < 10, Byte.isDigit (Byte.zero + UInt8.ofNat d) = true := by decide
  exact hall (n % 10) (Nat.mod_lt n (by decide))

theorem digit_eq_zero {n : Nat} (h : digit n = Byte.zero) : n % 10 = 0 := by
  have hall : ∀ d < 10, Byte.zero + UInt8.ofNat d = Byte.zero → d = 0 := by decide
  exact hall (n % 10) (Nat.mod_lt n (by decide)) h

theorem digits_of_lt {n : Nat} (h : n < 10) : digits n = [digit n] := by
  rw [digits, if_pos h]

theorem digits_of_le {n : Nat} (h : 10 ≤ n) : digits n = digits (n / 10) ++ [digit n] := by
  rw [digits, if_neg (Nat.not_lt.2 h)]

theorem digits_ne_nil (n : Nat) : digits n ≠ [] := by
  by_cases h : n < 10
  · rw [digits_of_lt h]
    exact List.cons_ne_nil _ _
  · rw [digits_of_le (Nat.not_lt.1 h)]
    simp

theorem isDigit_of_mem_digits {n : Nat} {b : UInt8} (hb : b ∈ digits n) :
    Byte.isDigit b = true := by
  induction n using digits.induct with
  | case1 n h =>
    rw [digits_of_lt h, List.mem_singleton] at hb
    rw [hb]
    exact isDigit_digit n
  | case2 n h ih =>
    rw [digits_of_le (Nat.not_lt.1 h), List.mem_append, List.mem_singleton] at hb
    rcases hb with hb | rfl
    · exact ih hb
    · exact isDigit_digit n

/-- Only zero is written with a leading zero. -/
theorem eq_zero_of_head?_digits {n : Nat} (h : (digits n).head? = some Byte.zero) : n = 0 := by
  induction n using digits.induct with
  | case1 n hn =>
    rw [digits_of_lt hn, List.head?_cons, Option.some.injEq] at h
    have hzero := digit_eq_zero h
    omega
  | case2 n hn ih =>
    have hle : 10 ≤ n := Nat.not_lt.1 hn
    obtain ⟨d, ds, hd⟩ := List.exists_cons_of_ne_nil (digits_ne_nil (n / 10))
    rw [digits_of_le hle, hd] at h
    rw [hd] at ih
    have hzero := ih h
    omega

/-! ## The number behind the digits -/

theorem value_append_singleton (bs : Bytes) (b : UInt8) :
    value (bs ++ [b]) = 10 * value bs + (b - Byte.zero).toNat := by
  rw [value, List.foldl_append]
  rfl

theorem toNat_digit_sub (n : Nat) : (digit n - Byte.zero).toNat = n % 10 := by
  have hall : ∀ d < 10, (Byte.zero + UInt8.ofNat d - Byte.zero).toNat = d := by decide
  exact hall (n % 10) (Nat.mod_lt n (by decide))

/-- **The digits of a number stand for it.** -/
theorem value_digits (n : Nat) : value (digits n) = n := by
  induction n using digits.induct with
  | case1 n h =>
    rw [digits_of_lt h, ← List.nil_append [digit n], value_append_singleton, toNat_digit_sub,
      Nat.mod_eq_of_lt h]
    exact Nat.zero_add n
  | case2 n h ih =>
    rw [digits_of_le (Nat.not_lt.1 h), value_append_singleton, ih, toNat_digit_sub]
    exact Nat.div_add_mod n 10

theorem minus_not_mem_digits (n : Nat) : Byte.minus ∉ digits n := by
  intro hmem
  exact absurd (isDigit_of_mem_digits hmem) (by decide)

/-- **An integer is known by its decimal.** -/
theorem ofInt_injective {n m : Int} (h : ofInt n = ofInt m) : n = m := by
  cases n with
  | ofNat n =>
    cases m with
    | ofNat m =>
      have hvalue := congrArg value h
      rw [ofInt, ofInt, value_digits, value_digits] at hvalue
      rw [hvalue]
    | negSucc m =>
      rw [ofInt, ofInt] at h
      exact absurd (h ▸ List.mem_cons_self) (minus_not_mem_digits n)
  | negSucc n =>
    cases m with
    | ofNat m =>
      rw [ofInt, ofInt] at h
      exact absurd (h ▸ List.mem_cons_self) (minus_not_mem_digits m)
    | negSucc m =>
      have hvalue := congrArg value (List.cons.inj h).2
      rw [value_digits, value_digits, Nat.succ.injEq] at hvalue
      rw [hvalue]

theorem ten_pow_succ (k : Nat) : Nat.pow 10 (k + 1) = 10 * Nat.pow 10 k := Nat.mul_comm _ _

theorem length_digits_le {n k : Nat} (hk : 0 < k) (h : n < Nat.pow 10 k) :
    (digits n).length ≤ k := by
  induction n using digits.induct generalizing k with
  | case1 n hn => rw [digits_of_lt hn]; exact hk
  | case2 n hn ih =>
    obtain ⟨j, rfl⟩ : ∃ j, k = j + 1 := ⟨k - 1, by omega⟩
    have hj : 0 < j := by
      refine Nat.pos_of_ne_zero ?_
      rintro rfl
      exact hn h
    have hlt : n / 10 < Nat.pow 10 j := by
      rw [ten_pow_succ] at h
      omega
    have hlength := ih hj hlt
    rw [digits_of_le (Nat.not_lt.1 hn), List.length_append, List.length_singleton]
    omega

/-! ## Digits of a given width -/

theorem isDigit_of_mem_fixed {width n : Nat} {b : UInt8} (hb : b ∈ fixed width n) :
    Byte.isDigit b = true := by
  induction width generalizing n with
  | zero => cases hb
  | succ width ih =>
    rw [fixed, List.mem_append, List.mem_singleton] at hb
    rcases hb with hb | rfl
    · exact ih hb
    · exact isDigit_digit n

theorem isDigit_of_mem_atLeast {width n : Nat} {b : UInt8} (hb : b ∈ atLeast width n) :
    Byte.isDigit b = true := by
  rw [atLeast, List.mem_append] at hb
  rcases hb with hb | hb
  · rw [List.eq_of_mem_replicate hb]
    decide
  · exact isDigit_of_mem_digits hb

/-- Of a number that is too long for its width the last digits are left. -/
theorem value_fixed (width n : Nat) : value (fixed width n) = n % Nat.pow 10 width := by
  induction width generalizing n with
  | zero => exact (Nat.mod_one n).symm
  | succ width ih =>
    rw [fixed, value_append_singleton, ih, toNat_digit_sub, ten_pow_succ, Nat.mod_mul, Nat.add_comm]

theorem value_atLeast (width n : Nat) : value (atLeast width n) = n := by
  have hzeros (k : Nat) (bs : Bytes) : value (List.replicate k Byte.zero ++ bs) = value bs := by
    induction k with
    | zero => rfl
    | succ k ih => exact ih
  rw [atLeast, hzeros, value_digits]

theorem atLeast_ne_nil (width n : Nat) : atLeast width n ≠ [] := by
  rw [atLeast, ne_eq, List.append_eq_nil_iff]
  exact fun h => digits_ne_nil n h.2

theorem length_atLeast (width n : Nat) :
    (atLeast width n).length = max width (digits n).length := by
  rw [atLeast, List.length_append, List.length_replicate]
  omega

/-! ## Digits as text -/

theorem encode_digitChar {n : Nat} (h : n < 10) :
    String.utf8EncodeChar (Nat.digitChar n) = [digit n] := by
  have hall : ∀ d < 10, String.utf8EncodeChar (Nat.digitChar d) = [digit d] := by decide
  exact hall n h

/-- The text of a number is its digits. -/
theorem ofString_toString (n : Nat) : Bytes.ofString (toString n) = digits n := by
  rw [Nat.toString_eq_ofList_toDigits, Bytes.ofString_ofList]
  induction n using digits.induct with
  | case1 n h =>
    rw [digits_of_lt h, Nat.toDigits_of_lt_base h, Bytes.ofChars_cons, Bytes.ofChars_nil,
      encode_digitChar h]
    rfl
  | case2 n h ih =>
    have hle : 10 ≤ n := Nat.not_lt.1 h
    have hdigit : digit (n % 10) = digit n := by rw [digit, Nat.mod_mod, digit]
    rw [digits_of_le hle, Nat.toDigits_of_base_le (by decide) hle, Bytes.ofChars_append, ih,
      Bytes.ofChars_cons, Bytes.ofChars_nil, encode_digitChar (Nat.mod_lt n (by decide)), hdigit]
    rfl

end GoalProgress.Decimal
