import GoalProgress.Proofs.Cache.Checked
import GoalProgress.Proofs.Document.Exposed
import GoalProgress.Proofs.Snapshot.RoundTrip

/-!
# What has been rendered is never cached

Splicing exposes a reserved name in everything that it gives out, in whatever bytes it has spliced:
before the name there is the comma of the suffix, or the opening brace of an empty object with its
blanks. So the check refuses what has been rendered, and no document is ever spliced twice.

## Main definitions

* `Splice.Rendered`: what splicing into goals and into challenges with goals gives out.
-/
namespace GoalProgress

open Json

namespace Splice

/-! ## Goals -/

theorem exists_suffix_eq (record : Option ProgressRecord) :
    ∃ rest, Suffix.ofRecord? record =
      Byte.comma :: (ReservedKey.progress.literal ++ Byte.colon :: rest) := by
  have hname : quoted .full "progress" = ReservedKey.progress.literal := by decide
  rw [← Suffix.flatMap_members, Suffix.members, List.flatMap_cons, hname]
  exact ⟨_, by rw [List.cons_append, List.append_assoc]; rfl⟩

/-- What counts as an empty object ends with a byte that parts members. -/
theorem exists_parting_of_isEmptyObject {body : Bytes} (h : isEmptyObject body = true) :
    ∃ before, ∃ b ∈ Document.parting, body = before ++ [b] := by
  rw [isEmptyObject, beq_iff_eq] at h
  rcases List.eq_nil_or_concat body with rfl | ⟨before, b, rfl⟩
  · cases h
  · refine ⟨before, b, ?_, List.concat_eq_append⟩
    by_cases hb : Byte.isBlank b = true
    · simp only [Byte.isBlank, Bool.or_eq_true, beq_iff_eq] at hb
      rcases hb with (((rfl | rfl) | rfl) | rfl) | rfl <;> decide
    · rw [List.concat_eq_append, Bytes.lastInk?_append_singleton (by simpa using hb)] at h
      cases h
      decide

/-- **A goal is spliced in a place where its suffix is exposed**, whatever its bytes are. -/
theorem exposed_goal {doc : Bytes} (h : Byte.closeBrace ∈ doc) (record : Option ProgressRecord) :
    Document.Exposed (goal doc record) := by
  obtain ⟨before, after, rfl, hafter⟩ := Bytes.exists_last h
  obtain ⟨rest, hsuffix⟩ := exists_suffix_eq record
  rw [goal_of_last hafter, suffixAfter, hsuffix]
  cases hempty : isEmptyObject before with
  | false =>
    -- the comma of the suffix stands before its first name
    exact ⟨before, Byte.comma, .progress, rest ++ Byte.closeBrace :: after, by decide, by simp⟩
  | true =>
    obtain ⟨before, b, hb, rfl⟩ := exists_parting_of_isEmptyObject hempty
    exact ⟨before, b, .progress, rest ++ Byte.closeBrace :: after, hb, by simp⟩

theorem closeBrace_mem_goal {doc : Bytes} (h : Byte.closeBrace ∈ doc)
    (record : Option ProgressRecord) : Byte.closeBrace ∈ goal doc record := by
  obtain ⟨before, after, rfl, hafter⟩ := Bytes.exists_last h
  rw [goal_of_last hafter]
  exact List.mem_append_right _ List.mem_cons_self

/-! ## Everything rendered -/

/-- What splicing gives out: goals with a closing brace, and challenges with one goal or more, with
their progress. -/
inductive Rendered : Bytes → Prop
  | goal {doc : Bytes} (h : Byte.closeBrace ∈ doc) (record : Option ProgressRecord) :
      Rendered (goal doc record)
  | challenge {doc out : Bytes} {c : Cut} {lookup : Lookup} (hcut : cut doc = .ok (some c))
      (hgoals : c.goals ≠ []) (h : challenge doc lookup = .ok out) : Rendered out

/-- A rendered challenge has a rendered goal in it. -/
theorem exists_goal_of_challenge {doc out : Bytes} {c : Cut} {lookup : Lookup}
    (hcut : cut doc = .ok (some c)) (hgoals : c.goals ≠ []) (h : challenge doc lookup = .ok out) :
    ∃ before goalDoc record after, Byte.closeBrace ∈ goalDoc ∧
      out = before ++ goal goalDoc record ++ after := by
  rcases challenge_eq_ok_iff.1 h with ⟨hnone, _⟩ | ⟨c', spliced, hcut', hspliced, rfl⟩
  · rw [hcut] at hnone
    cases hnone
  · rw [hcut] at hcut'
    cases hcut'
    have hbrace := c.closeBrace_mem_goals
    cases hlist : c.goals with
    | nil => exact absurd hlist hgoals
    | cons goalDoc docs =>
      rw [hlist] at hspliced hbrace
      obtain ⟨id, rest, _, _, rfl⟩ := numberedGoals_cons_eq_ok hspliced
      refine ⟨c.before, goalDoc, lookup.get? id,
        rest.flatMap (Byte.comma :: ·) ++ c.after, hbrace goalDoc List.mem_cons_self, ?_⟩
      rw [joined_cons]
      simp

namespace Rendered

variable {doc : Bytes}

/-- **The check refuses everything rendered**, and says that a reserved name is present. -/
theorem exists_check_eq (h : Rendered doc) (id : String) :
    ∃ k, Document.check id doc = .error (.invalidDocument id (.reservedKey k)) := by
  cases h with
  | goal hbrace record =>
    exact (exposed_goal hbrace record).exists_check_eq (closeBrace_mem_goal hbrace record) id
  | challenge hcut hgoals hchallenge =>
    obtain ⟨before, goalDoc, record, after, hbrace, rfl⟩ :=
      exists_goal_of_challenge hcut hgoals hchallenge
    refine ((exposed_goal hbrace record).append before after).exists_check_eq ?_ id
    exact List.mem_append_left _ (List.mem_append_right _ (closeBrace_mem_goal hbrace record))

theorem check_ne_ok (h : Rendered doc) (id : String) : Document.check id doc ≠ .ok () := by
  obtain ⟨k, hk⟩ := h.exists_check_eq id
  rw [hk]
  exact nofun

end Rendered

end Splice

/-- **What has been rendered is never cached.** The check refuses it under every id. So after any
operations, none of the documents in a cache, and none in a snapshot that it is saved as, has been
rendered before. -/
theorem Cache.rendered_never_cached :
    (∀ doc, Splice.Rendered doc → ∀ id, ∃ k,
      Document.check id doc = .error (.invalidDocument id (.reservedKey k))) ∧
    ∀ (ops : List Operation) (doc : Bytes), Splice.Rendered doc →
      (∀ id, (after ops).challengeDocument? id ≠ some doc ∧
        (after ops).goalDocument? id ≠ some doc) ∧
      ∀ s : Snapshot, s.Lists (after ops) →
        (∀ c ∈ s.challenges, c.document ≠ doc) ∧ ∀ g ∈ s.goals, g.2 ≠ doc := by
  refine ⟨fun doc h id => h.exists_check_eq id, ?_⟩
  intro ops doc h
  have hchecked := Checked.after ops
  refine ⟨fun id => ⟨?_, ?_⟩, fun s hs => ⟨?_, ?_⟩⟩
  · exact fun hdoc => h.check_ne_ok id (hchecked.challenge hdoc)
  · exact fun hdoc => h.check_ne_ok id (hchecked.goal hdoc)
  · rintro c hc rfl
    exact h.check_ne_ok c.id ((hs.usable hchecked).challenges c hc)
  · rintro g hg rfl
    exact h.check_ne_ok g.1 ((hs.usable hchecked).goals g hg)

/-- A challenge that is nothing but one goal. -/
def Splice.oneGoal : Bytes := Bytes.ofString "\x7b\"goals\":[\x7b\"goalId\":\"g\"\x7d]\x7d"

/-- An empty goal, and a challenge with one goal, with their progress. -/
theorem Cache.rendered_never_cached_bare :
    (∃ k, Document.check "g" (Splice.goal (Bytes.ofString "\x7b \x7d") none) =
      .error (.invalidDocument "g" (.reservedKey k))) ∧
    (∃ out, Splice.challenge Splice.oneGoal .empty = .ok out ∧
      ∃ k, Document.check "c" out = .error (.invalidDocument "c" (.reservedKey k))) ∧
    (after [.insertRaw .bare]).goalDocument? "g" ≠
      some (Splice.goal (Bytes.ofString "\x7b \x7d") none) := by
  have hgoal : Splice.Rendered (Splice.goal (Bytes.ofString "\x7b \x7d") none) :=
    .goal (by decide) none
  have hout : Splice.challenge Splice.oneGoal .empty = .ok _ := rfl
  have hchallenge : Splice.Rendered _ := .challenge rfl (by decide) hout
  obtain ⟨hrefused, hcached⟩ := rendered_never_cached
  exact ⟨hrefused _ hgoal "g", ⟨_, hout, hrefused _ hchallenge "c"⟩,
    ((hcached [.insertRaw .bare] _ hgoal).1 "g").2⟩

end GoalProgress
