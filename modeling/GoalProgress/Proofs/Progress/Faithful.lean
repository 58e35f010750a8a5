import GoalProgress.Proofs.Instant.RoundTrip
import GoalProgress.Proofs.Splice.Served

/-!
# A suffix shows the state of its record

Between braces the suffix is an object with four members, and an object says one thing only. So two
records have one suffix exactly if all that is shown of them is the same: the number, the status,
and either timestamp to the whole second. A goal without a record shows the state in which nothing
has happened, and no other.
-/
namespace GoalProgress.Suffix

open Json

/-! ## Timestamps -/

/-- What is shown of a timestamp is the whole second, or that there is none. -/
theorem timestamp_eq_timestamp_iff (t u : Option Instant) :
    timestamp t = timestamp u ↔ t.map Instant.whole = u.map Instant.whole := by
  have hne (t : Instant) : t.print ≠ [] := by simp [Instant.print]
  cases t with
  | none =>
    cases u with
    | none => exact iff_of_true rfl rfl
    | some u => exact iff_of_false (hne u).symm (Option.some_ne_none u.whole).symm
  | some t =>
    cases u with
    | none => exact iff_of_false (hne t) (Option.some_ne_none t.whole)
    | some u =>
      rw [Option.map_some, Option.map_some, Option.some.injEq]
      exact t.print_eq_print_iff u

theorem timestamp_of_text_eq {t u : Option Instant} (h : timestampText t = timestampText u) :
    timestamp t = timestamp u := by
  rw [← ofString_timestampText, h, ofString_timestampText]

/-! ## What is shown of a record -/

/-- Between braces, without its first comma, a suffix says its contents. -/
theorem says_members (record : Option ProgressRecord) :
    Says (Byte.openBrace :: ((ofRecord? record).drop 1 ++ [Byte.closeBrace]))
      (.object (contents record)) := by
  refine ⟨(Tree.object .none (Splice.suffixMembers record)).tight, ?_, ?_⟩
  · rw [Tree.paddedText_tight, Tree.text_object, Tree.unclosed, Splice.joined_suffixMembers]
    rfl
  · rw [← memberContent_suffixMembers]
    exact Tree.content_object _ _

/-- One suffix has one content. -/
theorem contents_eq_of_ofRecord?_eq {record record' : Option ProgressRecord}
    (h : ofRecord? record = ofRecord? record') : contents record = contents record' := by
  have hsays := says_members record
  rw [h] at hsays
  exact Content.object.inj (Says.unique hsays (says_members record'))

/-- **The suffix tells what is shown of its record**: the number, the status and either timestamp to
the whole second. -/
theorem ofRecord?_eq_iff (r s : ProgressRecord) :
    ofRecord? (some r) = ofRecord? (some s) ↔
      r.progress = s.progress ∧ r.status = s.status ∧
        r.completedAt.map Instant.whole = s.completedAt.map Instant.whole ∧
        r.claimedAt.map Instant.whole = s.claimedAt.map Instant.whole := by
  simp only [← timestamp_eq_timestamp_iff]
  constructor
  · intro h
    have hvalue (k : ReservedKey) : shownValue (some r) k = shownValue (some s) k := by
      have hfilter := filter_contents (some r) k
      rw [contents_eq_of_ofRecord?_eq h, filter_contents] at hfilter
      exact (Prod.ext_iff.1 (List.cons.inj hfilter).1).2.symm
    refine ⟨?_, ?_, ?_, ?_⟩
    · have hnumber := Content.number.inj (hvalue .progress)
      exact Int32.toInt_inj.1 (Decimal.ofInt_injective hnumber)
    · have hname := StringValue.text.inj (Content.string.inj (hvalue .status))
      have hstatus := congrArg Status.ofName? hname
      rw [Status.ofName?_name, Status.ofName?_name] at hstatus
      exact Option.some.inj hstatus
    · exact timestamp_of_text_eq (StringValue.text.inj (Content.string.inj (hvalue .completedAt)))
    · exact timestamp_of_text_eq (StringValue.text.inj (Content.string.inj (hvalue .claimedAt)))
  · rintro ⟨hprogress, hstatus, hcompleted, hclaimed⟩
    rw [ofRecord?, ofRecord?, ofRecord, ofRecord, hprogress, hstatus, hcompleted, hclaimed]

/-- **A goal without a record shows one state only**: the one in which nothing has happened. -/
theorem ofRecord?_none_eq_iff (r : ProgressRecord) :
    ofRecord? none = ofRecord? (some r) ↔
      r.progress = 0 ∧ r.status = .notStarted ∧ r.completedAt = none ∧ r.claimedAt = none := by
  have hnone : ofRecord? none = ofRecord? (some notStarted) := ofRecord_notStarted.symm
  rw [hnone, eq_comm, ofRecord?_eq_iff]
  simp only [notStarted, Option.map_none, Option.map_eq_none_iff]

/-- **A suffix shows the visible state of its record, no more and no less.** Without its first comma
and between braces it is an object with the four members in their order, which says nothing else;
two records have one suffix exactly if they have one number, one status and, to the whole second,
the same timestamps or none; and the fixed suffix of a goal without a record is that of the records
in which nothing has happened. -/
theorem ofRecord?_faithful :
    (∀ r : ProgressRecord, ∃ shown, ofRecord? (some r) = Byte.comma :: shown ∧
      ∀ c, Says (Byte.openBrace :: (shown ++ [Byte.closeBrace])) c ↔
        c = .object [(.text "progress", .number (Decimal.ofInt r.progress.toInt)),
          (.text "status", .string (.text r.status.name)),
          (.text "completedAt", .string (.text (timestampText r.completedAt))),
          (.text "claimedAt", .string (.text (timestampText r.claimedAt)))]) ∧
    (∀ r s : ProgressRecord, ofRecord? (some r) = ofRecord? (some s) ↔
      r.progress = s.progress ∧ r.status = s.status ∧
        r.completedAt.map Instant.whole = s.completedAt.map Instant.whole ∧
        r.claimedAt.map Instant.whole = s.claimedAt.map Instant.whole) ∧
    ∀ r : ProgressRecord, ofRecord? none = ofRecord? (some r) ↔
      r.progress = 0 ∧ r.status = .notStarted ∧ r.completedAt = none ∧ r.claimedAt = none := by
  refine ⟨fun r => ⟨(ofRecord? (some r)).drop 1, ?_, fun c => ⟨?_, ?_⟩⟩, ofRecord?_eq_iff,
    ofRecord?_none_eq_iff⟩
  · rw [← flatMap_members, members, List.flatMap_cons, List.cons_append, List.drop_one,
      List.tail_cons]
  · intro hsays
    exact Says.unique hsays (says_members (some r))
  · rintro rfl
    exact says_members (some r)

end GoalProgress.Suffix
