import GoalProgress.Progress.Suffix
import GoalProgress.Proofs.Json.Compact

/-!
# The suffix as members

Behind each of its commas the suffix is one member of an object. Status names and printed timestamps
need no escapes, so each value is a JSON value for every record. No value is long, so neither is the
suffix.

## Main definitions

* `Suffix.members`: the four members that a suffix is made of.
-/
namespace GoalProgress

open Json

/-! ## Timestamps -/

/-- A byte that stands for itself in a text and in a string literal. -/
def Json.IsPlain (b : UInt8) : Prop := b.toNat < 0x80 ∧ needsEscape b = false

instance (b : UInt8) : Decidable (IsPlain b) := inferInstanceAs (Decidable (_ ∧ _))

theorem Json.isStringText_of_isPlain {bs : Bytes} (h : ∀ b ∈ bs, IsPlain b) : IsStringText bs := by
  have hchars : Bytes.ofString (String.ofList (bs.map fun b => Char.ofNat b.toNat)) = bs := by
    rw [Bytes.ofString_ofList, Bytes.ofChars_map_ofNat fun b hb => (h b hb).1]
  have hverbatim : escape .full bs = bs :=
    escape_of_forall EscapeStyle.full_sound fun b hb => (h b hb).2
  have htext := isStringText_escape EscapeStyle.full_sound
    (String.ofList (bs.map fun b => Char.ofNat b.toNat))
  rwa [hchars, hverbatim] at htext

theorem Json.isStringText_of_all (bs : Bytes) (h : (bs.all fun b => decide (IsPlain b)) = true) :
    IsStringText bs :=
  isStringText_of_isPlain fun b hb => of_decide_eq_true (List.all_eq_true.1 h b hb)

theorem Json.isPlain_of_isDigit {b : UInt8} (h : Byte.isDigit b = true) : IsPlain b := by
  simp only [Byte.isDigit, Bool.and_eq_true, decide_eq_true_eq, UInt8.le_iff_toNat_le,
    UInt8.reduceToNat] at h
  have hzero : Byte.zero.toNat = 0x30 := rfl
  refine ⟨by omega, ?_⟩
  rw [← Bool.not_eq_true, needsEscape_iff]
  rintro (rfl | rfl | hlt)
  · exact absurd h (by decide)
  · exact absurd h (by decide)
  · rw [UInt8.lt_iff_toNat_lt] at hlt
    simp only [UInt8.reduceToNat] at hlt
    omega

namespace Instant

theorem isPlain_fixed (width n : Nat) : ∀ b ∈ Decimal.fixed width n, IsPlain b := fun _ hb =>
  isPlain_of_isDigit (Decimal.isDigit_of_mem_fixed hb)

theorem isPlain_printSeconds (t : Instant) : ∀ b ∈ t.printSeconds, IsPlain b := by
  have hyear : ∀ b ∈ printYear t.date.year, IsPlain b := by
    intro b hb
    rw [printYear] at hb
    split at hb
    · exact isPlain_fixed _ _ b hb
    · rcases List.mem_cons.1 hb with rfl | hb
      · split <;> decide
      · exact isPlain_of_isDigit (Decimal.isDigit_of_mem_atLeast hb)
  simp only [printSeconds, List.forall_mem_append, List.forall_mem_cons]
  have hminus : IsPlain Byte.minus := by decide
  have hcolon : IsPlain Byte.colon := by decide
  refine ⟨⟨⟨⟨⟨hyear, hminus, isPlain_fixed _ _⟩, hminus, isPlain_fixed _ _⟩, ?_⟩, hcolon,
    isPlain_fixed _ _⟩, hcolon, isPlain_fixed _ _⟩
  exact ⟨by decide, isPlain_fixed _ _⟩

theorem isPlain_print (t : Instant) : ∀ b ∈ t.print, IsPlain b := by
  rw [print, List.forall_mem_append]
  exact ⟨t.isPlain_printSeconds, List.forall_mem_singleton.2 (by decide)⟩

theorem isPlain_printExact (t : Instant) : ∀ b ∈ t.printExact, IsPlain b := by
  have hfraction : ∀ b ∈ printFraction t.nano.val, IsPlain b := by
    have hpoint (width n : Nat) : ∀ b ∈ Byte.point :: Decimal.fixed width n, IsPlain b :=
      List.forall_mem_cons.2 ⟨by decide, isPlain_fixed width n⟩
    rw [printFraction]
    split
    · exact nofun
    · split
      · exact hpoint _ _
      · split <;> exact hpoint _ _
  rw [printExact, List.forall_mem_append, List.forall_mem_append]
  exact ⟨⟨t.isPlain_printSeconds, hfraction⟩, List.forall_mem_singleton.2 (by decide)⟩

end Instant

namespace Suffix

theorem isPlain_timestamp (t : Option Instant) : ∀ b ∈ timestamp t, IsPlain b := by
  cases t with
  | none => exact nofun
  | some t => exact t.isPlain_print

/-- A timestamp as it is shown. -/
def timestampTree (t : Option Instant) : Tree :=
  .string ⟨timestamp t, isStringText_of_isPlain (isPlain_timestamp t)⟩

/-! ## Members -/

/-- The state of a goal without a record. -/
def notStarted : ProgressRecord := { goalId := "" }

/-- The members that show the state of a record, or of no record. -/
def members (record : Option ProgressRecord) : List (String × Tree) :=
  let r := record.getD notStarted
  [("progress", .ofInt r.progress.toInt),
    ("status", .string (.ofString EscapeStyle.short_sound r.status.name)),
    ("completedAt", timestampTree r.completedAt),
    ("claimedAt", timestampTree r.claimedAt)]

theorem ofInt_zero : Decimal.ofInt (0 : Int32).toInt = [Byte.zero] := by
  rw [show (0 : Int32).toInt = Int.ofNat 0 from rfl, Decimal.ofInt,
    Decimal.digits_of_lt (by decide)]
  rfl

/-- The suffix of a goal without a record is that of the record in which nothing has happened. -/
theorem ofRecord_notStarted : ofRecord notStarted = default := by
  rw [ofRecord, notStarted, ofInt_zero]
  rfl

/-- **Every suffix is four members, each behind a comma.** -/
theorem flatMap_members (record : Option ProgressRecord) :
    ((members record).flatMap fun m =>
      Byte.comma :: (quoted .full m.1 ++ Byte.colon :: m.2.text)) = ofRecord? record := by
  have hrecord (r : ProgressRecord) : ((members (some r)).flatMap fun m =>
      Byte.comma :: (quoted .full m.1 ++ Byte.colon :: m.2.text)) = ofRecord r := by
    have hprogress : Byte.comma :: (quoted .full "progress" ++ [Byte.colon]) =
        Bytes.ofString ",\"progress\":" := by decide
    have hstatus : Byte.comma :: (quoted .full "status" ++ [Byte.colon, Byte.quote]) =
        Bytes.ofString ",\"status\":\"" := by decide
    have hcompleted : Byte.quote :: Byte.comma :: (quoted .full "completedAt" ++
        [Byte.colon, Byte.quote]) = Bytes.ofString "\",\"completedAt\":\"" := by decide
    have hclaimed : Byte.quote :: Byte.comma :: (quoted .full "claimedAt" ++
        [Byte.colon, Byte.quote]) = Bytes.ofString "\",\"claimedAt\":\"" := by decide
    rw [ofRecord, ← hprogress, ← hstatus, ← hcompleted, ← hclaimed]
    simp [members, timestampTree, Tree.text, StringText.ofString, StringText.quoted, Value.ofInt,
      Value.print, print_ofInt]
  cases record with
  | some r => exact hrecord r
  | none => exact (hrecord notStarted).trans ofRecord_notStarted

/-- A suffix is more than its first comma. -/
theorem one_lt_length (record : Option ProgressRecord) : 1 < (ofRecord? record).length := by
  rw [← flatMap_members, members, List.flatMap_cons]
  simp only [List.cons_append, List.length_cons, List.length_append]
  omega

end Suffix

/-! ## Lengths -/

/-- An integer of 32 bits has at most ten digits and a sign. -/
theorem Decimal.length_ofInt_le (n : Int32) : (ofInt n.toInt).length ≤ 11 := by
  have hmin := n.minValue_le_toInt
  have hmax := n.toInt_le
  have hten (k : Nat) (hk : k ≤ 2147483648) : (digits k).length ≤ 10 :=
    length_digits_le (by decide) (Nat.lt_of_le_of_lt hk (by decide))
  simp only [Int32.toInt_minValue, Int32.toInt_maxValue] at hmin hmax
  cases hn : n.toInt with
  | ofNat k =>
    rw [hn, Int.ofNat_eq_natCast] at hmax
    have hlength := hten k (by omega)
    rw [ofInt]
    omega
  | negSucc k =>
    have hlength := hten (k + 1) (by omega)
    rw [ofInt, List.length_cons]
    omega

/-- A year has at most six digits and a sign. -/
theorem Instant.length_printYear_le (t : Instant) : (printYear t.date.year).length ≤ 7 := by
  obtain ⟨hfirst, hlast, -⟩ := t.date.valid
  simp only [DateFields.firstYear, DateFields.lastYear] at hfirst hlast
  rw [printYear]
  split
  · rw [Decimal.length_fixed]
    decide
  · have hdigits : (Decimal.digits t.date.year.natAbs).length ≤ 6 :=
      Decimal.length_digits_le (by decide)
        (Nat.lt_of_le_of_lt (by omega : t.date.year.natAbs ≤ 262143) (by decide))
    rw [List.length_cons, Decimal.length_atLeast]
    omega

theorem Instant.length_print_le (t : Instant) : t.print.length ≤ 23 := by
  have hyear := t.length_printYear_le
  simp only [print, printSeconds, List.length_append, List.length_cons, List.length_nil,
    Decimal.length_fixed]
  omega

namespace Suffix

theorem length_timestamp_le (t : Option Instant) : (timestamp t).length ≤ 23 := by
  cases t with
  | none => exact Nat.zero_le _
  | some t => exact t.length_print_le

/-- **No suffix is longer than the length that is allowed for one.** -/
theorem length_ofRecord?_le (record : Option ProgressRecord) :
    (ofRecord? record).length ≤ maxLength := by
  cases record with
  | none => decide
  | some r =>
    have hprogress := Decimal.length_ofInt_le r.progress
    have hstatus : (escape .short (Bytes.ofString r.status.name)).length ≤ 11 := by
      cases r.status <;> decide
    have hcompleted := length_timestamp_le r.completedAt
    have hclaimed := length_timestamp_le r.claimedAt
    have hnames : (Bytes.ofString ",\"progress\":").length = 12 ∧
        (Bytes.ofString ",\"status\":\"").length = 11 ∧
        (Bytes.ofString "\",\"completedAt\":\"").length = 17 ∧
        (Bytes.ofString "\",\"claimedAt\":\"").length = 15 := by decide
    rw [ofRecord?, ofRecord, maxLength]
    simp only [List.length_append, List.length_singleton]
    omega

end Suffix

end GoalProgress
