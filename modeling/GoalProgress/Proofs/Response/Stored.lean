import GoalProgress.Proofs.Cache.Checked
import GoalProgress.Proofs.Cache.Origin
import GoalProgress.Proofs.Splice.Text

/-!
# Which cached challenges can be rendered

Whether a challenge can be spliced does not depend on any progress: either it can be spliced with
every lookup, or it fails with the same error for all. The check asks for less than splicing needs,
so a document that was handed in, or came from a snapshot, may be cached and yet never be rendered.
The documents of definitions can all be rendered.

## Main definitions

* `Splice.Injectable`: documents with what splicing needs.
* `Splice.Fault`: the errors of documents that cannot be spliced.
-/
namespace GoalProgress

namespace Splice

/-- A document that can be spliced: it names no goals, or their array can be cut out and an id is
found in each of them. -/
def Injectable (doc : Bytes) : Prop :=
  ∃ c? : Option Cut, cut doc = .ok c? ∧
    ∀ c ∈ c?, ∀ goal ∈ c.goals, ∃ id, GoalId.ofGoal goal = .ok id

/-- The errors of a document that cannot be spliced. -/
inductive Fault : Error → Prop
  | malformedGoals (fault : GoalsFault) : Fault (.malformedGoals fault)
  | goalIdExtraction (ordinal : Nat) (cause : GoalIdError) : Fault (.goalIdExtraction ordinal cause)

/-- Goals with ids are spliced with every lookup, and the first goal without one fails with every
lookup. -/
theorem numberedGoals_cases (goals : List Bytes) (ordinal : Nat) :
    (∀ goal ∈ goals, ∃ id, GoalId.ofGoal goal = .ok id) ∧
        (∀ lookup, ∃ spliced, numberedGoals lookup ordinal goals = .ok spliced) ∨
      (¬ ∀ goal ∈ goals, ∃ id, GoalId.ofGoal goal = .ok id) ∧
        ∃ n cause, ∀ lookup,
          numberedGoals lookup ordinal goals = .error (.goalIdExtraction n cause) := by
  induction goals generalizing ordinal with
  | nil => exact .inl ⟨nofun, fun _ => ⟨[], rfl⟩⟩
  | cons first goals ih =>
    rw [List.forall_mem_cons]
    cases hfirst : GoalId.ofGoal first with
    | error cause =>
      refine .inr ⟨fun h => ?_, ordinal, cause, fun lookup => ?_⟩
      · obtain ⟨id, hid⟩ := h.1
        cases hid
      · exact numberedGoals_cons_of_error hfirst lookup ordinal goals
    | ok id =>
      rcases ih (ordinal + 1) with ⟨hids, hspliced⟩ | ⟨hids, n, cause, herror⟩
      · refine .inl ⟨⟨⟨id, rfl⟩, hids⟩, fun lookup => ?_⟩
        obtain ⟨spliced, hgoals⟩ := hspliced lookup
        exact ⟨_, by rw [numberedGoals_cons_of_ok hfirst, hgoals]; rfl⟩
      · refine .inr ⟨fun h => hids h.2, n, cause, fun lookup => ?_⟩
        rw [numberedGoals_cons_of_ok hfirst, herror]
        rfl

/-- **A document is spliced with every lookup, or fails with one error for all.** -/
theorem challenge_cases (doc : Bytes) :
    (Injectable doc ∧ ∀ lookup, ∃ spliced, challenge doc lookup = .ok spliced) ∨
      (¬ Injectable doc ∧ ∃ e, Fault e ∧ ∀ lookup, challenge doc lookup = .error e) := by
  rcases cut_cases doc with hcut | ⟨fault, hcut⟩ | ⟨_, _, c, _, _, hcut⟩
  · refine .inl ⟨⟨none, hcut, nofun⟩, fun lookup => ⟨doc, ?_⟩⟩
    exact challenge_eq_ok_iff.2 (.inl ⟨hcut, rfl⟩)
  · refine .inr ⟨?_, _, .malformedGoals fault, fun lookup => ?_⟩
    · rintro ⟨c?, hc, _⟩
      rw [hcut] at hc
      cases hc
    · rw [challenge_eq_cut, hcut]
      rfl
  · rcases numberedGoals_cases c.goals 0 with ⟨hids, hspliced⟩ | ⟨hids, n, cause, herror⟩
    · refine .inl ⟨⟨some c, hcut, ?_⟩, fun lookup => ?_⟩
      · rintro _ ⟨⟩
        exact hids
      · obtain ⟨spliced, hgoals⟩ := hspliced lookup
        exact ⟨_, challenge_eq_ok_iff.2 (.inr ⟨c, spliced, hcut, hgoals, rfl⟩)⟩
    · refine .inr ⟨?_, _, .goalIdExtraction n cause, fun lookup => ?_⟩
      · rintro ⟨c?, hc, h⟩
        obtain rfl := Except.ok.inj (hcut.symm.trans hc)
        exact hids (h c rfl)
      · rw [challenge_eq_cut, hcut]
        simp only [bind, Except.bind, herror lookup]

/-- The documents of definitions can be spliced. -/
theorem injectable_print (c : Challenge) : Injectable c.print := by
  rcases challenge_cases c.print with ⟨h, _⟩ | ⟨_, e, _, herror⟩
  · exact h
  · have hok := c.splice_print .empty
    rw [herror] at hok
    cases hok

end Splice

namespace Cache

/-- A cached challenge is rendered from its document. -/
theorem challenge_builder {cache : Cache} {id : String} {doc : Bytes}
    (h : cache.challengeDocument? id = some doc) (sizing : Sizing) (lookup : Lookup) :
    (cache.builder sizing).challenge id lookup = Splice.challenge doc lookup := by
  rw [ResponseBuilder.challenge_eq]
  simp only [builder, store, h]

/-- **A cached challenge is rendered with every lookup if its document has what splicing needs.** If
it does not, it fails with one error for all lookups. The proof does not need that the search stops
at no bracket inside a string literal: this leaves out what splicing makes of such a bracket, which
opens no goals, so that its outcome is nothing to rely on. A document that fails was not printed
from a definition: it was handed in as it is, or came from a snapshot. -/
theorem stored_challenge_renders (ops : List Operation) (sizing : Sizing) {id : String}
    {doc : Bytes} (h : (after ops).challengeDocument? id = some doc) :
    (Splice.Injectable doc →
      ∀ lookup, ∃ out, ((after ops).builder sizing).challenge id lookup = .ok out) ∧
    (¬ Splice.Injectable doc → Splice.OpensOutside doc → ∃ e, Splice.Fault e ∧
      ∀ lookup, ((after ops).builder sizing).challenge id lookup = .error e) ∧
    (¬ Splice.Injectable doc → ∃ op ∈ ops, op.Brings id doc ∧ ∀ cs, op ≠ .warmUp cs) := by
  simp only [challenge_builder h]
  rcases Splice.challenge_cases doc with ⟨hdoc, hspliced⟩ | ⟨hdoc, herror⟩
  · exact ⟨fun _ => hspliced, fun hnot => absurd hdoc hnot, fun hnot => absurd hdoc hnot⟩
  · refine ⟨fun hinjectable => absurd hinjectable hdoc, fun _ _ => herror, fun _ => ?_⟩
    obtain ⟨op, hop, hbrings⟩ := exists_brings ops h
    refine ⟨op, hop, hbrings, ?_⟩
    rintro cs rfl
    cases hbrings with
    | warmUp hc => exact hdoc (Splice.injectable_print _)

end Cache

/-- A challenge with a null for its goals. -/
def Prepared.nullGoals : Prepared := ⟨"n", Bytes.ofString "\x7b\"goals\":null\x7d", []⟩

namespace Cache

theorem challengeDocument?_nullGoals : (after [.insertRaw .nullGoals]).challengeDocument? "n" =
    some Prepared.nullGoals.document := by
  rw [after_insertRaw rfl, challengeDocument?_insert]
  rfl

theorem stored_challenge_renders_nullGoals :
    (after [.insertRaw .nullGoals]).challengeDocument? "n" = some Prepared.nullGoals.document ∧
      ¬ Splice.Injectable Prepared.nullGoals.document ∧
      Splice.OpensOutside Prepared.nullGoals.document ∧
      ∃ e, Splice.Fault e ∧ ∀ lookup,
        ((after [.insertRaw .nullGoals]).builder {}).challenge "n" lookup = .error e := by
  have hnot : ¬ Splice.Injectable Prepared.nullGoals.document := by
    rintro ⟨c?, hcut, _⟩
    have hfault : Splice.cut Prepared.nullGoals.document =
        .error (.malformedGoals .missingOpening) := rfl
    rw [hfault] at hcut
    cases hcut
  have hopens : Splice.OpensOutside Prepared.nullGoals.document := by
    intro key opening hkey hopening
    obtain rfl : 1 = key := Option.some.inj hkey
    have hnone : Prepared.nullGoals.document.findByte? Byte.openBracket
        (1 + Splice.goalsKey.length) = none := rfl
    rw [hnone] at hopening
    cases hopening
  obtain ⟨_, hfails, _⟩ :=
    stored_challenge_renders [.insertRaw .nullGoals] {} challengeDocument?_nullGoals
  exact ⟨challengeDocument?_nullGoals, hnot, hopens, hfails hnot hopens⟩

/-- The null passes the check and is cached, but it is not rendered with any lookup. -/
theorem challenge_nullGoals :
    (Operation.run (.insertRaw .nullGoals) empty).1 = .ok () ∧
      (after [.insertRaw .nullGoals]).challengeDocument? "n" =
        some (Bytes.ofString "\x7b\"goals\":null\x7d") ∧
      ∀ lookup, ((after [.insertRaw .nullGoals]).builder {}).challenge "n" lookup =
        .error (.malformedGoals .missingOpening) := by
  refine ⟨rfl, challengeDocument?_nullGoals, fun lookup => ?_⟩
  rw [challenge_builder challengeDocument?_nullGoals]
  rfl

end Cache

end GoalProgress
