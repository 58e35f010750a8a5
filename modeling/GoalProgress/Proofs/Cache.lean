import GoalProgress.Proofs.Definition.Check
import GoalProgress.Proofs.Table

/-!
# The cache after loading definitions

Loading definitions never fails, and afterwards the cache holds the documents of these definitions
and of nothing else, whatever it held before. Of several definitions with one id the last one
counts.

## Main definitions

* `Prepared.entry`: the entry that a challenge is inserted with.
* `Cache.challenge?`: what a cache holds of a challenge.
* `Cache.loaded`: the cache after loading definitions.
-/
namespace GoalProgress

/-- The entry of a challenge that is ready for insertion. -/
def Prepared.entry (p : Prepared) : ChallengeEntry := ⟨p.document, p.goals.map (·.1)⟩

namespace Cache

variable (cache : Cache)

/-- The entry of a challenge. -/
def challenge? (id : String) : Option ChallengeEntry := cache.challenges[id]?

theorem challengeDocument?_eq (id : String) :
    cache.challengeDocument? id = (cache.challenge? id).map (·.document) := rfl

theorem goalCount_eq (id : String) :
    cache.goalCount id = ((cache.challenge? id).map (·.goalIds.length)).getD 0 := rfl

/-! ## Adding and removing -/

/-- Writing goals changes no challenges. -/
theorem foldl_insertGoal (gs : List (String × Bytes)) :
    gs.foldl (fun cache g => cache.insertGoal g.1 g.2) cache =
      ⟨cache.challenges, gs.foldl (fun t g => t.insert g.1 g.2) cache.goals⟩ := by
  induction gs generalizing cache with
  | nil => rfl
  | cons g gs ih => exact ih _

theorem challenge?_insert (p : Prepared) (id : String) :
    (cache.insert p).challenge? id =
      if p.id = id then some p.entry else cache.challenge? id := by
  rw [insert, foldl_insertGoal, challenge?, challenge?]
  simp [insertChallenge, Prepared.entry, Std.ExtTreeMap.getElem?_insert]

theorem challengeDocument?_insert (p : Prepared) (id : String) :
    (cache.insert p).challengeDocument? id =
      if p.id = id then some p.document else cache.challengeDocument? id := by
  rw [challengeDocument?_eq, challenge?_insert, apply_ite (Option.map _)]
  rfl

theorem goalDocument?_insert (p : Prepared) (id : String) :
    (cache.insert p).goalDocument? id =
      ((lastWith (·.1) id p.goals).map (·.2)).or (cache.goalDocument? id) := by
  rw [insert, goalDocument?_insertChallenge]
  exact get_foldl_write (fun cache g id => cache.goalDocument?_insertGoal g.1 g.2 id) p.goals
    cache id

/-- Printed documents are added exactly if all of them pass the check. -/
theorem insertRaw_eq_ok_iff (p : Prepared) (new : Cache) :
    cache.insertRaw p = .ok new ↔ p.check = .ok () ∧ new = cache.insert p := by
  rw [insertRaw]
  cases p.check <;> simp [bind, Except.bind, pure, Except.pure, eq_comm]

theorem challenge?_retain (challengeIds goalIds : List String) (id : String) :
    (cache.retain challengeIds goalIds).challenge? id =
      if id ∈ challengeIds then cache.challenge? id else none := by
  rw [challenge?, retain, Std.ExtTreeMap.getElem?_filter', challenge?]
  cases cache.challenges[id]? with
  | none => simp
  | some entry => by_cases h : id ∈ challengeIds <;> simp [Option.filter, h]

theorem challengeDocument?_retain (challengeIds goalIds : List String) (id : String) :
    (cache.retain challengeIds goalIds).challengeDocument? id =
      if id ∈ challengeIds then cache.challengeDocument? id else none := by
  rw [challengeDocument?_eq, challenge?_retain, apply_ite (Option.map _)]
  rfl

theorem goalDocument?_retain (challengeIds goalIds : List String) (id : String) :
    (cache.retain challengeIds goalIds).goalDocument? id =
      if id ∈ goalIds then cache.goalDocument? id else none := by
  rw [goalDocument?, retain, Std.ExtTreeMap.getElem?_filter', goalDocument?]
  cases cache.goals[id]? with
  | none => simp
  | some doc => by_cases h : id ∈ goalIds <;> simp [Option.filter, h]

/-! ## Replacing -/

theorem challenge?_foldl_insert (ps : List Prepared) (id : String) :
    (ps.foldl insert cache).challenge? id =
      ((lastWith (·.id) id ps).map (·.entry)).or (cache.challenge? id) :=
  get_foldl_write challenge?_insert ps cache id

theorem challenge?_replace (ps : List Prepared) (id : String) :
    (cache.replace ps).challenge? id = (lastWith (·.id) id ps).map (·.entry) := by
  rw [replace, challenge?_retain, challenge?_foldl_insert]
  cases h : lastWith (·.id) id ps with
  | none => rw [if_neg (lastWith_eq_none_iff.1 h)]; rfl
  | some p =>
    obtain ⟨hmem, rfl⟩ := lastWith_eq_some h
    rw [if_pos (List.mem_map_of_mem hmem)]
    rfl

theorem goalDocument?_foldl_insert (ps : List Prepared) (id : String) :
    (ps.foldl insert cache).goalDocument? id =
      ((lastWith (·.1) id (ps.flatMap (·.goals))).map (·.2)).or (cache.goalDocument? id) := by
  induction ps generalizing cache with
  | nil => rfl
  | cons p ps ih =>
    rw [List.foldl_cons, ih, goalDocument?_insert, List.flatMap_cons, lastWith_append,
      Option.map_or, Option.or_assoc]

theorem goalDocument?_replace (ps : List Prepared) (id : String) :
    (cache.replace ps).goalDocument? id =
      (lastWith (·.1) id (ps.flatMap (·.goals))).map (·.2) := by
  rw [replace, goalDocument?_retain, goalDocument?_foldl_insert, ← List.map_flatMap]
  cases h : lastWith (·.1) id (ps.flatMap (·.goals)) with
  | none => rw [if_neg (lastWith_eq_none_iff.1 h)]; rfl
  | some g =>
    obtain ⟨hmem, rfl⟩ := lastWith_eq_some h
    rw [if_pos (List.mem_map_of_mem hmem)]
    rfl

/-! ## Definitions -/

/-- The cache that holds the documents of definitions, in place of what it held before. -/
def loaded (cs : List Challenge) : Cache := cache.replace (cs.map Prepared.ofChallenge)

/-- **Definitions can always be loaded.** -/
theorem warmUp_eq (cs : List Challenge) : cache.warmUp cs = .ok (cache.loaded cs) := by
  have hchecks : (cs.map Prepared.ofChallenge).forM Prepared.check = .ok () := by
    rw [forM_eq_ok_iff]
    intro p hp
    obtain ⟨c, _, rfl⟩ := List.mem_map.1 hp
    exact Prepared.check_ofChallenge c
  rw [warmUp]
  simp only [hchecks]
  rfl

/-- A challenge is cached by the last definition with its id. -/
theorem challenge?_loaded (cs : List Challenge) (id : String) :
    (cache.loaded cs).challenge? id =
      (lastWith (·.id) id cs).map fun c => ⟨c.print, c.goals.map (·.id)⟩ := by
  have hentry (c : Challenge) :
      (Prepared.ofChallenge c).entry = ⟨c.print, c.goals.map (·.id)⟩ := by
    rw [Prepared.ofChallenge, Prepared.entry, List.map_map]
    rfl
  rw [loaded, challenge?_replace, lastWith_map, Option.map_map]
  exact congrArg (Option.map · _) (funext hentry)

theorem challengeDocument?_loaded (cs : List Challenge) (id : String) :
    (cache.loaded cs).challengeDocument? id = (lastWith (·.id) id cs).map Challenge.print := by
  rw [challengeDocument?_eq, challenge?_loaded, Option.map_map]
  rfl

/-- A goal is cached by the last definition with its id, in whichever challenge. -/
theorem goalDocument?_loaded (cs : List Challenge) (id : String) :
    (cache.loaded cs).goalDocument? id =
      (lastWith (·.id) id (cs.flatMap (·.goals))).map Goal.print := by
  have hgoals : (cs.map Prepared.ofChallenge).flatMap (·.goals) =
      (cs.flatMap (·.goals)).map fun g => (g.id, g.print) := by
    rw [List.flatMap_map, List.map_flatMap]
    rfl
  rw [loaded, goalDocument?_replace, hgoals, lastWith_map, Option.map_map]
  rfl

end Cache

end GoalProgress
