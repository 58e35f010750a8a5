import GoalProgress.Progress.Printer
import GoalProgress.Proofs.Definition.RoundTrip
import GoalProgress.Proofs.Instant.RoundTrip
import GoalProgress.Proofs.Progress.Lookup
import GoalProgress.Proofs.Progress.Suffix
import GoalProgress.Proofs.Source
import Mathlib.Data.List.Dedup

/-!
# Progress files are read back

A record is read member by member, in the order in which it is printed: each value is taken back
whatever follows it, and is put where no value was before. So a file with the print of a list of
records is loaded as these records, the last one of each goal winning.
-/
namespace GoalProgress

open Json

/-! ## Timestamps -/

namespace Instant

/-- The text that an instant is written as. -/
def text (t : Instant) : String := String.ofList t.printExact.chars

theorem toString?_printExact (t : Instant) : Bytes.toString? t.printExact = some t.text := by
  have hbytes : Bytes.ofChars t.printExact.chars = t.printExact :=
    Bytes.ofChars_map_ofNat fun b hb => (t.isPlain_printExact b hb).1
  rw [text, ← Bytes.toString?_ofChars, hbytes]

theorem toJson?_some (t : Instant) : toJson? (some t) = .string t.text := by
  rw [toJson?, toString?_printExact, Option.getD_some]

theorem ofString?_text (t : Instant) : ofString? t.text = some t := by
  rw [ofString?, text, String.toList_ofList, ofChars?_printExact]

end Instant

/-! ## Values of members -/

namespace ProgressRecord

theorem print_string_append (s : String) (rest : Bytes) :
    (Value.string s).print ++ rest =
      Byte.quote :: (escape .full (Bytes.ofString s) ++ Byte.quote :: rest) := by
  simp [Value.print, quoted]

theorem readText_print (s : String) (rest : Bytes) :
    readText ((Value.string s).print ++ rest) = .ok (s, rest) := by
  rw [print_string_append, readText, skipSpace_cons (.inr rfl)]
  exact readString_escape EscapeStyle.full_sound s rest

theorem readInt32_print (n : Int32) {rest : Bytes} (hrest : Delimited rest) :
    readInt32 ((Value.ofInt n.toInt).print ++ rest) = .ok (n, rest) := by
  have hmin := n.minValue_le_toInt
  have hmax := n.toInt_le
  have hnumber := number?_ofInt (Int.le_trans (by decide) hmin) (Int.le_trans hmax (by decide))
  have hrange : int32? n.toInt = some n := by rw [int32?, if_pos ⟨hmin, hmax⟩, Int32.ofInt_toInt]
  have hread : readNumeral ((Value.ofInt n.toInt).print ++ rest) =
      .ok (Numeral.ofInt n.toInt, rest) := by
    rw [Value.ofInt, Value.print, Numeral.ofInt, readNumeral_print _ _ hrest]
  obtain ⟨b, bs, htext, hb⟩ := Value.exists_print_ofInt_eq n.toInt
  rw [htext, List.cons_append] at hread ⊢
  rw [readInt32, skipSpace_cons (.inr (isSpace_of_number hb))]
  simp [hb, hread, hnumber, hrange, bind, Except.bind, pure, Except.pure]

theorem readStatus_print (s : Status) (rest : Bytes) :
    readStatus ((Value.string s.name).print ++ rest) = .ok (s, rest) := by
  rw [print_string_append, readStatus, skipSpace_cons (.inr rfl)]
  simp [readString_escape EscapeStyle.full_sound, statusNamed, bind, Except.bind, pure, Except.pure]

theorem readTimestamp_print (t : Option Instant) (rest : Bytes) :
    readTimestamp ((Instant.toJson? t).print ++ rest) = .ok (t, rest) := by
  cases t with
  | none =>
    have htext : (Instant.toJson? none).print = 0x6E :: nullTail := by
      rw [Instant.toJson?, Value.print]
      rfl
    rw [htext, List.cons_append, readTimestamp, skipSpace_cons (.inr rfl)]
    exact congrArg (Except.map _) (expectWord_append nullTail rest)
  | some t =>
    rw [Instant.toJson?_some, print_string_append, readTimestamp, skipSpace_cons (.inr rfl)]
    have hletter : Byte.quote ≠ 0x6E := by decide
    simp [hletter, readString_escape EscapeStyle.full_sound, Instant.ofString?_text, bind,
      Except.bind, pure, Except.pure]

/-! ## Records -/

theorem readOnce_colon {α : Type} {read : Bytes → Except Problem (α × Bytes)} {a : α}
    {text rest : Bytes} (hread : read text = .ok (a, rest)) (name : String) (put : α → Draft) :
    readOnce name none read (Byte.colon :: text) put = .ok (put a, rest) := by
  simp [readOnce, expectColon_colon, hread, bind, Except.bind, pure, Except.pure]

/-- The members of a record fill the draft one after the other. -/
theorem membersRead (r : ProgressRecord) :
    MembersRead readMember Prod.fst (fun m => m.2.print) {} [
      ("userId", Value.string r.userId),
      ("goalId", .string r.goalId),
      ("challengeId", .string r.challengeId),
      ("namespace", .string r.gameNamespace),
      ("progress", .ofInt r.progress.toInt),
      ("status", .string r.status.name),
      ("completedAt", Instant.toJson? r.completedAt),
      ("claimedAt", Instant.toJson? r.claimedAt)]
      ⟨some r.userId, some r.goalId, some r.challengeId, some r.gameNamespace, some r.progress,
        some r.status, some r.completedAt, some r.claimedAt⟩ := by
  -- no two members have one name, so no value is put twice
  apply MembersRead.cons
  · intro rest _
    simp only [readMember]
    exact readOnce_colon (readText_print r.userId rest) ..
  apply MembersRead.cons
  · intro rest _
    simp only [readMember]
    exact readOnce_colon (readText_print r.goalId rest) ..
  apply MembersRead.cons
  · intro rest _
    simp only [readMember]
    exact readOnce_colon (readText_print r.challengeId rest) ..
  apply MembersRead.cons
  · intro rest _
    simp only [readMember]
    exact readOnce_colon (readText_print r.gameNamespace rest) ..
  apply MembersRead.cons
  · intro rest hended
    simp only [readMember]
    exact readOnce_colon (readInt32_print r.progress hended.delimited) ..
  apply MembersRead.cons
  · intro rest _
    simp only [readMember]
    exact readOnce_colon (readStatus_print r.status rest) ..
  apply MembersRead.cons
  · intro rest _
    simp only [readMember]
    exact readOnce_colon (readTimestamp_print r.completedAt rest) ..
  apply MembersRead.cons
  · intro rest _
    simp only [readMember]
    exact readOnce_colon (readTimestamp_print r.claimedAt rest) ..
  exact .nil _

theorem read_object (rest : Bytes) :
    read (Byte.openBrace :: rest) = (do
      let (draft, rest) ← foldMembers readMember true {} rest
      return (← ofDraft draft, rest)) := by
  rw [read, skipSpace_cons (.inr rfl)]
  rfl

/-- **A record is read back from its print**, whatever follows it. -/
theorem read_print (r : ProgressRecord) (rest : Bytes) :
    read (r.print ++ rest) = .ok (r, rest) := by
  rw [print, toJson, Value.print, Value.printMembers_eq_map, List.cons_append, List.append_assoc,
    List.singleton_append, read_object, foldMembers_joined r.membersRead]
  rfl

/-! ## Files -/

theorem readFile_array (rest : Bytes) :
    readFile (Byte.openBracket :: rest) = (do
      let (records, rest) ← foldItems (fun records text =>
        (read text).map fun (r, rest) => (r :: records, rest)) true [] rest
      expectNothing rest
      return records.reverse) := by
  rw [readFile, skipSpace_cons (.inr rfl)]
  rfl

/-- **The records of a file are read back from their print.** -/
theorem readFile_printAll (rs : List ProgressRecord) : readFile (printAll rs) = .ok rs := by
  have hstart : ∀ r ∈ rs, Starts r.print := fun r _ =>
    ⟨Byte.openBrace, _, by rw [print, toJson, Value.print], rfl⟩
  have hstep : ∀ r ∈ rs, ∀ (done : List ProgressRecord) {rest}, Ended rest →
      (read (r.print ++ rest)).map (fun (r, rest) => (r :: done, rest)) =
        .ok (r :: done, rest) := by
    intro r _ done rest _
    rw [read_print]
    rfl
  have hprint : printAll rs =
      Byte.openBracket :: (joined (rs.map print) ++ [Byte.closeBracket]) := by
    rw [printAll, Value.print, Value.printItems_eq_map, List.map_map]
    rfl
  rw [hprint, readFile_array, foldItems_joined hstart hstep]
  simp [bind, Except.bind, pure, Except.pure, expectNothing, skipSpace]

end ProgressRecord

/-! ## Lookups -/

namespace Lookup

open Files (FileTree)

/-- **A lookup has one record for each goal of its records.** -/
theorem size_ofList (rs : List ProgressRecord) :
    (ofList rs).size = (rs.map (·.goalId)).dedup.length := by
  have hmem (id : String) : id ∈ (ofList rs).records.keys ↔ id ∈ (rs.map (·.goalId)).dedup := by
    rw [Std.ExtTreeMap.mem_keys, Std.ExtTreeMap.mem_iff_isSome_getElem?, List.mem_dedup,
      ← Lookup.get?, get?_ofList, Option.isSome_iff_ne_none, ne_eq, lastWith_eq_none_iff,
      Classical.not_not]
  have hperm : (ofList rs).records.keys.Perm (rs.map (·.goalId)).dedup :=
    (List.perm_ext_iff_of_nodup Std.ExtTreeMap.nodup_keys (List.nodup_dedup _)).2 hmem
  rw [size, ← Std.ExtTreeMap.length_keys, hperm.length_eq]

/-- **Progress files are read back.** A file with the print of a list of records is loaded as the
lookup of the list, and no file is changed: each goal has the last record with its id, as it was
before it was printed, and there are as many records as there are different ids. -/
theorem load_printAll {t : FileTree} {path : String} {rs : List ProgressRecord}
    (h : t.read (.ofString path) = .ok (ProgressRecord.printAll rs)) :
    ∃ lookup, (load path : FileM Lookup).run.run t = (.ok lookup, t) ∧ lookup = ofList rs ∧
      (∀ goalId, lookup.get? goalId = lastWith (·.goalId) goalId rs) ∧
      lookup.size = (rs.map (·.goalId)).dedup.length := by
  refine ⟨ofList rs, ?_, rfl, get?_ofList rs, size_ofList rs⟩
  rw [run_load, FileTree.records, FileTree.input, h]
  simp [Except.mapError, ProgressRecord.readFile_printAll, bind, Except.bind, pure, Except.pure]

/-- Records with texts that need every kind of escape, numbers at both ends, years of either sign,
leap days, leap seconds and all kinds of fractions. -/
def strange : List ProgressRecord := [
  { userId := "\""
    goalId := "\\"
    challengeId := "\n\x01"
    gameNamespace := "é😀"
    progress := Int32.minValue
    status := .claimed
    completedAt := Instant.ofString? "-0004-02-29T00:00:00Z"
    claimedAt := Instant.ofString? "+12345-12-31T23:59:60.000000001Z" },
  { goalId := "" },
  { goalId := "\\"
    progress := Int32.maxValue
    status := .completed
    completedAt := Instant.ofString? "2024-02-29T11:59:60.5Z"
    claimedAt := Instant.ofString? "-262143-01-01T00:00:59.000001Z" }]

/-- A directory with nothing but a file of these records. -/
def strangeFiles : FileTree :=
  FileTree.empty.put ["progress.json"] (.file (ProgressRecord.printAll strange))

theorem load_printAll_strange :
    strangeFiles.read (.ofString "progress.json") = .ok (ProgressRecord.printAll strange) ∧
      ∃ lookup, (load "progress.json" : FileM Lookup).run.run strangeFiles =
          (.ok lookup, strangeFiles) ∧
        lookup.get? "\\" = strange[2]? ∧ lookup.get? "x" = none ∧ lookup.size = 2 ∧
        (strange.filterMap (·.completedAt)).length = 2 ∧
        (strange.filterMap (·.claimedAt)).length = 2 := by
  have hread : strangeFiles.read (.ofString "progress.json") =
      .ok (ProgressRecord.printAll strange) := rfl
  obtain ⟨lookup, hload, -, hget, hsize⟩ := load_printAll hread
  refine ⟨hread, lookup, hload, ?_, ?_, ?_, by decide, by decide⟩
  · rw [hget]
    rfl
  · rw [hget]
    rfl
  · rw [hsize]
    decide

end Lookup

end GoalProgress
