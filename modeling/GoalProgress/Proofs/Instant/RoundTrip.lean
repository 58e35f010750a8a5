import GoalProgress.Instant.Reader
import GoalProgress.Proofs.Text.Decimal
import GoalProgress.Proofs.Text.Encoding

/-!
# Printed instants are read back

Every reader of a timestamp stops where the printer stops writing a number: at the given width, or
at the sign, colon or letter behind it. So an instant is read back from its print with the fraction,
whatever its year is, and its print without the fraction tells it to the whole second.

## Main definitions

* `Bytes.chars`: the characters of ASCII bytes.
* `Instant.whole`: an instant without its fraction of a second.
-/
namespace GoalProgress

/-! ## Digits as characters -/

/-- The characters with the numbers of ASCII bytes. -/
def Bytes.chars (bs : Bytes) : List Char := bs.map fun b => Char.ofNat b.toNat

namespace Bytes

@[simp] theorem chars_nil : chars [] = [] := rfl

@[simp] theorem chars_cons (b : UInt8) (bs : Bytes) :
    chars (b :: bs) = Char.ofNat b.toNat :: chars bs := rfl

@[simp] theorem chars_append (bs cs : Bytes) : chars (bs ++ cs) = chars bs ++ chars cs :=
  List.map_append

@[simp] theorem length_chars (bs : Bytes) : (chars bs).length = bs.length := List.length_map _

end Bytes

namespace Instant

/-- What a digit is as a character: it counts as the same digit, and it is neither a blank nor a
sign. -/
theorem char_of_isDigit {b : UInt8} (h : Byte.isDigit b = true) :
    (Char.ofNat b.toNat).isDigit = true ∧
      Text.digitValue (Char.ofNat b.toNat) = (b - Byte.zero).toNat ∧
      isBlank (Char.ofNat b.toNat) = false ∧
      Char.ofNat b.toNat ≠ '-' ∧ Char.ofNat b.toNat ≠ '+' := by
  have hall : ∀ n < 0x3A, 0x30 ≤ n →
      (Char.ofNat n).isDigit = true ∧
        Text.digitValue (Char.ofNat n) = (UInt8.ofNat n - Byte.zero).toNat ∧
        isBlank (Char.ofNat n) = false ∧ Char.ofNat n ≠ '-' ∧ Char.ofNat n ≠ '+' := by decide
  simp only [Byte.isDigit, Bool.and_eq_true, decide_eq_true_eq, UInt8.le_iff_toNat_le,
    UInt8.reduceToNat] at h
  have hb := hall b.toNat (by omega) h.1
  rwa [UInt8.ofNat_toNat] at hb

/-! ## Numbers -/

variable {ds : Bytes}

/-- Digits stand for the same number as bytes and as characters, and every zero behind them
multiplies it by ten. -/
theorem number_chars (hds : ∀ b ∈ ds, Byte.isDigit b = true) (zeros : Nat) :
    Text.number 10 (ds.chars ++ List.replicate zeros '0') =
      Decimal.value ds * Nat.pow 10 zeros := by
  have hzeros (n : Nat) : (List.replicate zeros '0').foldl
      (fun n c => 10 * n + Text.digitValue c) n = n * Nat.pow 10 zeros := by
    have hzero : Text.digitValue '0' = 0 := by decide
    induction zeros generalizing n with
    | zero => exact (Nat.mul_one n).symm
    | succ zeros ih =>
      rw [List.replicate_succ, List.foldl_cons, ih, hzero, Nat.add_zero,
        Decimal.ten_pow_succ, Nat.mul_comm 10 n, Nat.mul_assoc]
  have hdigits (n : Nat) : ds.chars.foldl (fun n c => 10 * n + Text.digitValue c) n =
      ds.foldl (fun n b => 10 * n + (b - Byte.zero).toNat) n := by
    induction ds generalizing n with
    | nil => rfl
    | cons d ds ih =>
      rw [List.forall_mem_cons] at hds
      rw [Bytes.chars_cons, List.foldl_cons, List.foldl_cons, ih hds.2, (char_of_isDigit hds.1).2.1]
  rw [Text.number, List.foldl_append, hdigits, hzeros, Decimal.value]

theorem number_chars_eq (hds : ∀ b ∈ ds, Byte.isDigit b = true) :
    Text.number 10 ds.chars = Decimal.value ds := by
  have hvalue := number_chars hds 0
  have hpow : Nat.pow 10 0 = 1 := rfl
  rwa [List.replicate_zero, List.append_nil, hpow, Nat.mul_one] at hvalue

theorem takeWhile_chars (hds : ∀ b ∈ ds, Byte.isDigit b = true) (rest : List Char) :
    (ds.chars ++ rest).takeWhile Char.isDigit = ds.chars ++ rest.takeWhile Char.isDigit := by
  refine List.takeWhile_append_of_pos fun c hc => ?_
  obtain ⟨b, hb, rfl⟩ := List.mem_map.1 hc
  exact (char_of_isDigit (hds b hb)).1

theorem dropWhile_chars (hds : ∀ b ∈ ds, Byte.isDigit b = true) (rest : List Char) :
    (ds.chars ++ rest).dropWhile Char.isDigit = rest.dropWhile Char.isDigit := by
  refine List.dropWhile_append_of_pos fun c hc => ?_
  obtain ⟨b, hb, rfl⟩ := List.mem_map.1 hc
  exact (char_of_isDigit (hds b hb)).1

theorem skipBlanks_of_not {c : Char} (hc : isBlank c = false) (rest : List Char) :
    skipBlanks (c :: rest) = c :: rest := by
  rw [skipBlanks, List.dropWhile_cons_of_neg (by simp [hc])]

/-- **A number is read up to its width**, or up to the first character that is no digit. -/
theorem readNumber?_chars {width : Nat} (hds : ∀ b ∈ ds, Byte.isDigit b = true) (hne : ds ≠ [])
    (hwidth : ds.length ≤ width) {rest : List Char}
    (hrest : (rest.takeWhile Char.isDigit).take (width - ds.length) = []) :
    readNumber? width (ds.chars ++ rest) = some (Decimal.value ds, rest) := by
  have htake : ((ds.chars ++ rest).takeWhile Char.isDigit).take width = ds.chars := by
    rw [takeWhile_chars hds, List.take_append, Bytes.length_chars, hrest, List.append_nil,
      List.take_of_length_le (by rwa [Bytes.length_chars])]
  rw [readNumber?, htake]
  obtain ⟨d, ds, rfl⟩ := List.exists_cons_of_ne_nil hne
  simp only [Bytes.chars_cons]
  rw [← Bytes.chars_cons, number_chars_eq hds, List.drop_left]

theorem readNumber?_fixed {width n : Nat} (hwidth : 0 < width) (hn : n < Nat.pow 10 width)
    (rest : List Char) :
    readNumber? width ((Decimal.fixed width n).chars ++ rest) = some (n, rest) := by
  have hds : ∀ b ∈ Decimal.fixed width n, Byte.isDigit b = true := fun _ =>
    Decimal.isDigit_of_mem_fixed
  have hlength : (Decimal.fixed width n).length = width := Decimal.length_fixed width n
  have hne : Decimal.fixed width n ≠ [] := List.ne_nil_of_length_pos (by omega)
  rw [readNumber?_chars hds hne (Nat.le_of_eq hlength), Decimal.value_fixed, Nat.mod_eq_of_lt hn]
  rw [hlength, Nat.sub_self, List.take_zero]

/-- A number of fixed width starts with a digit. -/
theorem exists_chars_fixed {width : Nat} (hwidth : 0 < width) (n : Nat) :
    ∃ c cs, (Decimal.fixed width n).chars = c :: cs ∧ isBlank c = false ∧ c ≠ '-' ∧ c ≠ '+' := by
  have hne : Decimal.fixed width n ≠ [] := by
    refine List.ne_nil_of_length_pos ?_
    rwa [Decimal.length_fixed]
  obtain ⟨d, ds, hd⟩ := List.exists_cons_of_ne_nil hne
  have hdigit := Decimal.isDigit_of_mem_fixed (hd ▸ List.mem_cons_self : d ∈ Decimal.fixed width n)
  exact ⟨_, Bytes.chars ds, congrArg Bytes.chars hd, (char_of_isDigit hdigit).2.2⟩

theorem readField?_fixed {n : Nat} (hn : n < 100) (rest : List Char) :
    readField? ((Decimal.fixed 2 n).chars ++ rest) = some (n, rest) := by
  obtain ⟨c, cs, hchars, hblank, -⟩ := exists_chars_fixed (by decide : 0 < 2) n
  rw [readField?, hchars, List.cons_append, skipBlanks_of_not hblank, ← List.cons_append, ← hchars,
    readNumber?_fixed (by decide) hn]

theorem readSeparator?_cons {c : Char} (hc : isBlank c = false) (rest : List Char) :
    readSeparator? c (c :: rest) = some rest := by
  rw [readSeparator?, skipBlanks_of_not hc]
  exact if_pos rfl

/-! ## The parts of an instant -/

/-- **A year is read up to the sign behind it**, whatever its own sign and its length are. -/
theorem readYear?_printYear (year : Int) (rest : List Char) :
    readYear? ((printYear year).chars ++ '-' :: rest) = some (year, '-' :: rest) := by
  by_cases hyear : 0 ≤ year ∧ year ≤ 9999
  -- without a sign the reader stops after four digits
  · obtain ⟨c, cs, hchars, hblank, hminus, hplus⟩ :=
      exists_chars_fixed (by decide : 0 < 4) year.toNat
    have hlt : year.toNat < Nat.pow 10 4 :=
      Nat.lt_of_le_of_lt (by omega : year.toNat ≤ 9999) (by decide)
    have hread := readNumber?_fixed (by decide : 0 < 4) hlt
      ('-' :: rest)
    have hnat : (year.toNat : Int) = year := by omega
    rw [printYear, if_pos hyear, readYear?]
    rw [hchars, List.cons_append] at hread ⊢
    rw [skipBlanks_of_not hblank]
    simp [hminus, hplus, hread, hnat]
  -- behind a sign it takes all digits, as many as there are
  · have hds : ∀ b ∈ Decimal.atLeast 4 year.natAbs, Byte.isDigit b = true := fun _ =>
      Decimal.isDigit_of_mem_atLeast
    have hread : readNumber? ((Decimal.atLeast 4 year.natAbs).chars ++ '-' :: rest).length
        ((Decimal.atLeast 4 year.natAbs).chars ++ '-' :: rest) =
          some (year.natAbs, '-' :: rest) := by
      rw [readNumber?_chars hds (Decimal.atLeast_ne_nil 4 _) (by simp) List.take_nil,
        Decimal.value_atLeast]
    rw [printYear, if_neg hyear]
    by_cases hneg : year < 0
    · have hsign : Char.ofNat Byte.minus.toNat = '-' := rfl
      have hnat : -(year.natAbs : Int) = year := by omega
      rw [if_pos hneg, Bytes.chars_cons, hsign, List.cons_append, readYear?,
        skipBlanks_of_not rfl]
      simp only [hread, Option.map_some, hnat]
    · have hsign : Char.ofNat Byte.plus.toNat = '+' := rfl
      have hnat : (year.natAbs : Int) = year := by omega
      rw [if_neg hneg, Bytes.chars_cons, hsign, List.cons_append, readYear?,
        skipBlanks_of_not rfl]
      simp only [hread, Option.map_some, hnat]

/-- A fraction of up to nine digits is read as nanoseconds. -/
theorem readFraction?_chars (hds : ∀ b ∈ ds, Byte.isDigit b = true) (hne : ds ≠ [])
    (hlength : ds.length ≤ 9) :
    readFraction? ('.' :: (ds.chars ++ ['Z'])) =
      some (Decimal.value ds * Nat.pow 10 (9 - ds.length), ['Z']) := by
  have htake : ((ds.chars ++ ['Z']).takeWhile Char.isDigit).take 9 = ds.chars := by
    have hstop : ['Z'].takeWhile Char.isDigit = [] := rfl
    rw [takeWhile_chars hds, hstop, List.append_nil,
      List.take_of_length_le (by rwa [Bytes.length_chars])]
  have hdrop : (ds.chars ++ ['Z']).dropWhile Char.isDigit = ['Z'] := dropWhile_chars hds ['Z']
  rw [readFraction?, htake, hdrop]
  obtain ⟨d, ds, rfl⟩ := List.exists_cons_of_ne_nil hne
  simp only [Bytes.chars_cons]
  rw [← Bytes.chars_cons, number_chars hds, Bytes.length_chars]

theorem readFraction?_printFraction {nano : Nat} (h : nano < 1000000000) :
    readFraction? ((printFraction nano).chars ++ ['Z']) = some (nano, ['Z']) := by
  have hfixed (width n : Nat) (hwidth : 0 < width) (hle : width ≤ 9) (hn : n < Nat.pow 10 width)
      (hnano : n * Nat.pow 10 (9 - width) = nano) :
      readFraction? (Bytes.chars (Byte.point :: Decimal.fixed width n) ++ ['Z']) =
        some (nano, ['Z']) := by
    have hds : ∀ b ∈ Decimal.fixed width n, Byte.isDigit b = true := fun _ =>
      Decimal.isDigit_of_mem_fixed
    have hlength : (Decimal.fixed width n).length = width := Decimal.length_fixed width n
    have hread := readFraction?_chars hds (List.ne_nil_of_length_pos (by omega)) (by omega)
    rwa [Decimal.value_fixed, Nat.mod_eq_of_lt hn, hlength, hnano] at hread
  rw [printFraction]
  split
  · next hzero =>
    rw [hzero]
    rfl
  · split
    · next hmilli =>
      exact hfixed 3 (nano / 1000000) (by decide) (by decide) (Nat.div_lt_of_lt_mul h)
        (Nat.div_mul_cancel (Nat.dvd_of_mod_eq_zero hmilli))
    · split
      · next hmicro =>
        exact hfixed 6 (nano / 1000) (by decide) (by decide) (Nat.div_lt_of_lt_mul h)
          (Nat.div_mul_cancel (Nat.dvd_of_mod_eq_zero hmicro))
      · exact hfixed 9 nano (by decide) (by decide) h (Nat.mul_one nano)

/-! ## Instants -/

theorem ofFields?_eq (d : Date) : Date.ofFields? d.year d.month d.day = some d :=
  dif_pos d.valid

/-- Without an offset the date and the minute are kept. -/
theorem ofLocal?_zero (date : Date) (minute : Fin 1440) (second : Fin 61)
    (nano : Fin 1000000000) :
    ofLocal? date minute.val second nano 0 = some ⟨date, minute, second, nano⟩ := by
  have hlt := minute.isLt
  have hbefore : ¬ (minute.val : Int) < 0 := by omega
  have hafter : ¬ 1440 ≤ (minute.val : Int) := by omega
  have hminute : Fin.ofNat 1440 ((minute.val : Int) % 1440).toNat = minute := by
    refine Fin.ext ?_
    rw [Fin.val_ofNat]
    omega
  simp only [ofLocal?, Int.sub_zero, if_neg hbefore, if_neg hafter, hminute, bind, Option.bind,
    pure]

theorem chars_printExact (t : Instant) :
    t.printExact.chars = (printYear t.date.year).chars ++ '-' ::
      ((Decimal.fixed 2 t.date.month).chars ++ '-' ::
        ((Decimal.fixed 2 t.date.day).chars ++ 'T' ::
          ((Decimal.fixed 2 (t.minute.val / 60)).chars ++ ':' ::
            ((Decimal.fixed 2 (t.minute.val % 60)).chars ++ ':' ::
              ((Decimal.fixed 2 t.second.val).chars ++
                ((printFraction t.nano.val).chars ++ ['Z'])))))) := by
  simp only [printExact, printSeconds, Bytes.chars_append, Bytes.chars_cons, Bytes.chars_nil,
    List.append_assoc, List.cons_append]
  rfl

/-- **An instant is read back from its print with the fraction.** -/
theorem ofChars?_printExact (t : Instant) : ofChars? t.printExact.chars = some t := by
  obtain ⟨-, -, -, hmonth, -, hday⟩ := t.date.valid
  have hminute := t.minute.isLt
  have hsecond := t.second.isLt
  have hlast : t.date.day ≤ 31 := by
    refine Nat.le_trans hday ?_
    unfold DateFields.daysInMonth
    split
    · split <;> decide
    · split <;> decide
  have hclock : t.minute.val / 60 < 24 ∧ t.minute.val % 60 < 60 := by omega
  have hparts : t.minute.val / 60 * 60 + t.minute.val % 60 = t.minute.val := by omega
  have hdash : isBlank '-' = false := by decide
  have hcolon : isBlank ':' = false := by decide
  rw [chars_printExact]
  -- part by part, each with the rest of the print behind it
  refine Option.bind_eq_some_iff.2 ⟨_, readYear?_printYear t.date.year _, ?_⟩
  refine Option.bind_eq_some_iff.2 ⟨_, readSeparator?_cons hdash _, ?_⟩
  refine Option.bind_eq_some_iff.2 ⟨_, readField?_fixed (by omega) _, ?_⟩
  refine Option.bind_eq_some_iff.2 ⟨_, readSeparator?_cons hdash _, ?_⟩
  refine Option.bind_eq_some_iff.2 ⟨_, readField?_fixed (by omega) _, ?_⟩
  refine Option.bind_eq_some_iff.2 ⟨(), rfl, ?_⟩
  refine Option.bind_eq_some_iff.2 ⟨_, readField?_fixed (by omega) _, ?_⟩
  refine Option.bind_eq_some_iff.2 ⟨_, readSeparator?_cons hcolon _, ?_⟩
  refine Option.bind_eq_some_iff.2 ⟨_, readField?_fixed (by omega) _, ?_⟩
  refine Option.bind_eq_some_iff.2 ⟨_, readSeparator?_cons hcolon _, ?_⟩
  refine Option.bind_eq_some_iff.2 ⟨_, readField?_fixed (by omega) _, ?_⟩
  refine Option.bind_eq_some_iff.2 ⟨_, readFraction?_printFraction t.nano.isLt, ?_⟩
  refine Option.bind_eq_some_iff.2 ⟨(0, []), rfl, ?_⟩
  refine Option.bind_eq_some_iff.2 ⟨(), rfl, ?_⟩
  refine Option.bind_eq_some_iff.2 ⟨_, ofFields?_eq t.date, ?_⟩
  refine Option.bind_eq_some_iff.2 ⟨(), if_pos hclock, ?_⟩
  refine (dif_pos ⟨hsecond, t.nano.isLt⟩).trans ?_
  rw [hparts, ofLocal?_zero]

/-! ## Whole seconds -/

/-- An instant without its fraction of a second. -/
def whole (t : Instant) : Instant := { t with nano := 0 }

theorem print_eq_printExact_whole (t : Instant) : t.print = t.whole.printExact := by
  have hnone : printFraction t.whole.nano.val = [] := rfl
  rw [printExact, hnone, List.append_nil]
  rfl

/-- **Two instants print alike exactly if they agree to the whole second.** -/
theorem print_eq_print_iff (t u : Instant) : t.print = u.print ↔ t.whole = u.whole := by
  rw [print_eq_printExact_whole, print_eq_printExact_whole]
  constructor
  · intro h
    have hread := ofChars?_printExact t.whole
    rw [h, ofChars?_printExact] at hread
    exact (Option.some.inj hread).symm
  · intro h
    rw [h]

end Instant

end GoalProgress
