import GoalProgress.Proofs.Snapshot.Faithful
import GoalProgress.Proofs.Snapshot.RoundTrip

/-!
# No goal of a stored challenge is missing

A cache keeps challenges and goals in two tables, and a challenge only names its goals. Whatever is
loaded, added or opened again, in whatever order and with whatever ids in common, every goal that a
stored challenge names is stored.

The files of others are no part of this: a snapshot file may well name goals that it does not have.

## Main definitions

* `Cache.Linked`: the invariant.
* `Cache.Homegrown`: the caches that come about without files of others.
-/
namespace GoalProgress.Cache

variable {cache : Cache}

/-- Every goal that a stored challenge names is stored. -/
structure Linked (cache : Cache) : Prop where
  goal : ∀ {id entry}, cache.challenge? id = some entry →
    ∀ g ∈ entry.goalIds, (cache.goalDocument? g).isSome

namespace Linked

theorem empty : Cache.empty.Linked := by
  refine ⟨fun {id entry} hentry => ?_⟩
  rw [challenge?, Cache.empty, Std.ExtTreeMap.getElem?_empty] at hentry
  cases hentry

theorem isSome_lastWith {gs : List (String × Bytes)} {id : String} (h : id ∈ gs.map (·.1)) :
    ((lastWith (·.1) id gs).map (·.2)).isSome := by
  rw [Option.isSome_map, Option.isSome_iff_ne_none]
  intro hnone
  exact lastWith_eq_none_iff.1 hnone h

/-- A challenge comes with its goals, and no goal is taken away. -/
theorem insert (h : cache.Linked) (p : Prepared) : (cache.insert p).Linked := by
  refine ⟨fun {id entry} hentry => ?_⟩
  intro g hg
  rw [challenge?_insert] at hentry
  rw [goalDocument?_insert, Option.isSome_or, Bool.or_eq_true]
  by_cases hid : p.id = id
  · rw [if_pos hid, Option.some.injEq] at hentry
    rw [← hentry, Prepared.entry] at hg
    exact .inl (isSome_lastWith hg)
  · rw [if_neg hid] at hentry
    exact .inr (h.goal hentry g hg)

/-- The goals that stay are those of all new challenges, and so of the ones that stay in the end. -/
theorem replace (cache : Cache) (ps : List Prepared) : (cache.replace ps).Linked := by
  refine ⟨fun {id entry} hentry => ?_⟩
  intro g hg
  rw [challenge?_replace, Option.map_eq_some_iff] at hentry
  obtain ⟨p, hp, rfl⟩ := hentry
  have hmem : p ∈ ps := (lastWith_eq_some hp).1
  rw [goalDocument?_replace]
  refine isSome_lastWith ?_
  rw [List.map_flatMap, List.mem_flatMap]
  exact ⟨p, hmem, hg⟩

theorem insertRaw (h : cache.Linked) {p : Prepared} {new : Cache}
    (hnew : cache.insertRaw p = .ok new) : new.Linked := by
  obtain ⟨_, rfl⟩ := (cache.insertRaw_eq_ok_iff p new).1 hnew
  exact h.insert p

theorem warmUp {cs : List Challenge} {new : Cache} (hnew : cache.warmUp cs = .ok new) :
    new.Linked := by
  obtain rfl := Except.ok.inj ((cache.warmUp_eq cs).symm.trans hnew)
  exact replace cache _

/-- What holds of a cache and of the result of an operation holds after the operation. -/
theorem run (h : cache.Linked) {op : Operation}
    (hresult : ∀ {new}, op.result cache = .ok new → new.Linked) : (op.run cache).2.Linked := by
  cases hnew : op.result cache with
  | ok new =>
    rw [Operation.run_of_result_eq_ok hnew]
    exact hresult hnew
  | error e =>
    rw [Operation.run_of_result_eq_error hnew]
    exact h

end Linked

/-- A snapshot that was saved from a cache is opened as that cache, if it is opened at all. -/
theorem eq_of_ofSnapshotBytes_encode {saved new : Cache} {s : Snapshot} (hs : s.Lists saved)
    (h : ofSnapshotBytes s.encode = .ok new) : new = saved := by
  obtain ⟨found, hfound, _, rfl⟩ := (ofSnapshotBytes_eq_ok_iff s.encode new).1 h
  rw [Snapshot.eq_of_decode_encode hfound]
  exact hs.contents_eq

/-- The caches that come about without files of others: definitions are loaded, printed challenges
are added, and snapshots that were saved from such caches are opened again. Each operation may
succeed or fail. -/
inductive Homegrown : Cache → Prop
  | empty : Homegrown .empty
  | warmUp {cache : Cache} (h : Homegrown cache) (cs : List Challenge) :
      Homegrown ((Operation.warmUp cs).run cache).2
  | insertRaw {cache : Cache} (h : Homegrown cache) (p : Prepared) :
      Homegrown ((Operation.insertRaw p).run cache).2
  | reopen {cache saved : Cache} (h : Homegrown cache) (hsaved : Homegrown saved) {s : Snapshot}
      (hs : s.Lists saved) : Homegrown ((Operation.restore s.encode).run cache).2

theorem Homegrown.linked (h : Homegrown cache) : cache.Linked := by
  induction h with
  | empty => exact .empty
  | warmUp _ cs ih => exact ih.run fun hnew => Linked.warmUp hnew
  | insertRaw _ p ih => exact ih.run fun hnew => ih.insertRaw hnew
  | reopen _ _ hs ih ihsaved =>
    refine ih.run fun hnew => ?_
    rw [eq_of_ofSnapshotBytes_encode hs hnew]
    exact ihsaved

/-- The goals that the entry of a challenge names, none for an unknown challenge. -/
def goalIds (cache : Cache) (id : String) : List String :=
  ((cache.challenge? id).map (·.goalIds)).getD []

theorem length_goalIds (cache : Cache) (id : String) :
    (cache.goalIds id).length = cache.goalCount id := by
  rw [goalIds, goalCount_eq]
  cases cache.challenge? id <;> rfl

theorem Linked.isSome_of_mem_goalIds (h : cache.Linked) {id g : String}
    (hg : g ∈ cache.goalIds id) : (cache.goalDocument? g).isSome := by
  rw [goalIds] at hg
  cases hentry : cache.challenge? id with
  | none =>
    rw [hentry] at hg
    cases hg
  | some entry =>
    rw [hentry] at hg
    exact h.goal hentry g hg

/-- **No goal of a stored challenge is missing.** So the goals that a challenge names can be fetched
one by one, and they are as many as the challenge is said to have. -/
theorem exists_goal_documents (h : Homegrown cache) :
    cache.Linked ∧
      ∀ id, ∃ docs : List Bytes, docs.length = cache.goalCount id ∧
        (cache.goalIds id).map cache.goalDocument? = docs.map some := by
  have hlinked := h.linked
  refine ⟨hlinked, fun id => ?_⟩
  refine ⟨(cache.goalIds id).map fun g => (cache.goalDocument? g).getD [], ?_, ?_⟩
  · rw [List.length_map, cache.length_goalIds]
  · rw [List.map_map]
    refine List.map_congr_left fun g hg => ?_
    obtain ⟨doc, hdoc⟩ := Option.isSome_iff_exists.1 (hlinked.isSome_of_mem_goalIds hg)
    simp [hdoc]

/-- A cache is saved, emptied and opened again. -/
def reopened : Cache :=
  ((Operation.restore Snapshot.ofBare.encode).run
    ((Operation.warmUp []).run (after [.insertRaw .bare])).2).2

theorem homegrown_reopened : Homegrown reopened :=
  have hsaved : Homegrown (after [.insertRaw .bare]) := .insertRaw .empty .bare
  .reopen (.warmUp hsaved []) hsaved Snapshot.lists_ofBare

theorem exists_goal_documents_reopened :
    Homegrown reopened ∧ reopened.goalIds "c" = ["g", "h"] ∧
      ∃ docs : List Bytes, docs.length = 2 ∧
        [reopened.goalDocument? "g", reopened.goalDocument? "h"] = docs.map some := by
  have hlength : Snapshot.ofBare.encode.length < UInt64.size := by decide +kernel
  have hfile := Snapshot.lists_ofBare.ofSnapshotBytes_encode (Checked.after _) hlength []
  rw [List.append_nil] at hfile
  have hreopened : reopened = empty.insert .bare := by
    rw [reopened, Operation.run_eq, Operation.result, hfile, after_insertRaw_bare]
  have hids : reopened.goalIds "c" = ["g", "h"] := by
    rw [hreopened, goalIds, challenge?_insert]
    rfl
  obtain ⟨_, hdocs⟩ := exists_goal_documents homegrown_reopened
  obtain ⟨docs, hlength, hmap⟩ := hdocs "c"
  rw [← length_goalIds, hids] at hlength
  rw [hids] at hmap
  exact ⟨homegrown_reopened, hids, docs, hlength, hmap⟩

end GoalProgress.Cache
