import GoalProgress.Proofs.Cache
import GoalProgress.Proofs.Cache.Operation
import GoalProgress.Proofs.Snapshot.Restore

/-!
# Where the documents of a cache come from

No operation makes up a document. A challenge document in a cache was brought by an operation that
the cache has been through: it is the print of a definition, was handed in as it is, or stood in the
file of a snapshot.

## Main definitions

* `Cache.Operation.Brings`: the challenge documents that an operation brings.
-/
namespace GoalProgress

/-- Of several challenges with one id in a snapshot the last one counts. -/
theorem Snapshot.challengeDocument?_contents (s : Snapshot) (id : String) :
    s.contents.challengeDocument? id = (lastWith (·.id) id s.challenges).map (·.document) := by
  have hwrite (cache : Cache) (c : SnapshotChallenge) (other : String) :=
    cache.challengeDocument?_insertChallenge c.id ⟨c.document, c.goalIds⟩ other
  rw [contents]
  refine (get_foldl_write hwrite s.challenges _ id).trans ?_
  rw [Cache.foldl_insertGoal]
  exact Option.or_none

namespace Cache

/-- The challenge documents that an operation brings, with their ids. -/
inductive Operation.Brings : Operation → String → Bytes → Prop
  | warmUp {cs : List Challenge} {c : Challenge} (h : c ∈ cs) : Brings (.warmUp cs) c.id c.print
  | insertRaw (p : Prepared) : Brings (.insertRaw p) p.id p.document
  | restore {file : Bytes} {s : Snapshot} {c : SnapshotChallenge}
      (hfile : Snapshot.decode file = .ok s) (h : c ∈ s.challenges) :
      Brings (.restore file) c.id c.document

/-- A document that is found after an operation was brought by it, or was there before. -/
theorem Operation.brings_or_of_result {op : Operation} {cache new : Cache} {id : String}
    {doc : Bytes} (hnew : op.result cache = .ok new) (hdoc : new.challengeDocument? id = some doc) :
    op.Brings id doc ∨ cache.challengeDocument? id = some doc := by
  cases op with
  | warmUp cs =>
    obtain rfl := Except.ok.inj ((cache.warmUp_eq cs).symm.trans hnew)
    rw [challengeDocument?_loaded, Option.map_eq_some_iff] at hdoc
    obtain ⟨c, hc, rfl⟩ := hdoc
    obtain ⟨hmem, rfl⟩ := lastWith_eq_some hc
    exact .inl (.warmUp hmem)
  | insertRaw p =>
    obtain ⟨_, rfl⟩ := (cache.insertRaw_eq_ok_iff p new).1 hnew
    rw [challengeDocument?_insert] at hdoc
    by_cases hid : p.id = id
    · rw [if_pos hid, Option.some.injEq] at hdoc
      rw [← hid, ← hdoc]
      exact .inl (.insertRaw p)
    · rw [if_neg hid] at hdoc
      exact .inr hdoc
  | restore file =>
    obtain ⟨s, hfile, _, rfl⟩ := (ofSnapshotBytes_eq_ok_iff file new).1 hnew
    rw [s.challengeDocument?_contents, Option.map_eq_some_iff] at hdoc
    obtain ⟨c, hc, rfl⟩ := hdoc
    obtain ⟨hmem, rfl⟩ := lastWith_eq_some hc
    exact .inl (.restore hfile hmem)

/-- **Every challenge document was brought by an operation.** -/
theorem exists_brings (ops : List Operation) {id : String} {doc : Bytes}
    (h : (after ops).challengeDocument? id = some doc) : ∃ op ∈ ops, op.Brings id doc := by
  refine after_induction_of_mem (P := fun cache => cache.challengeDocument? id = some doc →
    ∃ op ∈ ops, op.Brings id doc) ops ?_ ?_ h
  · intro h
    rw [challengeDocument?_empty] at h
    cases h
  · intro op hop cache new hcache hnew hdoc
    rcases Operation.brings_or_of_result hnew hdoc with hbrings | hbefore
    · exact ⟨op, hop, hbrings⟩
    · exact hcache hbefore

end Cache

end GoalProgress
