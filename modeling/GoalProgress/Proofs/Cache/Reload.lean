import GoalProgress.Proofs.Cache
import GoalProgress.Proofs.Cache.Operation

/-!
# Loading definitions forgets the past

Loading definitions adds the new documents to the ones that are there and only then removes the ones
that are left over. Nothing of the old contents shows afterwards: an id that stays has its new
entry, a goal that is in no challenge any more is gone, and the cache is the one that the
definitions alone lead to.
-/
namespace GoalProgress.Cache

/-- A cache is known by its entries. -/
theorem ext_lookup {cache cache' : Cache}
    (hchallenge : ∀ id, cache.challenge? id = cache'.challenge? id)
    (hgoal : ∀ id, cache.goalDocument? id = cache'.goalDocument? id) : cache = cache' := by
  have hchallenges : cache.challenges = cache'.challenges :=
    Std.ExtTreeMap.ext_getElem? fun {id} => hchallenge id
  have hgoals : cache.goals = cache'.goals := Std.ExtTreeMap.ext_getElem? fun {id} => hgoal id
  exact congr (congrArg Cache.mk hchallenges) hgoals

/-- What is loaded does not depend on what was there before. -/
theorem loaded_eq_loaded (cache cache' : Cache) (cs : List Challenge) :
    cache.loaded cs = cache'.loaded cs := by
  refine ext_lookup (fun id => ?_) (fun id => ?_)
  · rw [challenge?_loaded, challenge?_loaded]
  · rw [goalDocument?_loaded, goalDocument?_loaded]

theorem ofChallenges_eq (cs : List Challenge) : ofChallenges cs = .ok (empty.loaded cs) :=
  empty.warmUp_eq cs

theorem run_warmUp (cs : List Challenge) (cache : Cache) :
    (Operation.warmUp cs).run cache = (.ok (), empty.loaded cs) := by
  rw [loaded_eq_loaded empty cache]
  exact Operation.run_of_result_eq_ok (cache.warmUp_eq cs)

/-- A challenge has as many goals as its last definition. -/
theorem goalCount_loaded (cache : Cache) (cs : List Challenge) (id : String) :
    (cache.loaded cs).goalCount id =
      ((lastWith (·.id) id cs).map fun c => c.goals.length).getD 0 := by
  rw [goalCount_eq, challenge?_loaded, Option.map_map]
  congr 2
  funext c
  exact List.length_map _

/-- **A reload forgets the past.** Whatever a cache holds, loading definitions leads to the same
cache as loading them into an empty one, and loading them once more changes nothing. It holds the
last definition of every id: of a challenge under its id, and of a goal in whichever challenge. -/
theorem warmUp_forgets (cs : List Challenge) :
    ∃ fresh, ofChallenges cs = .ok fresh ∧
      (∀ cache, (Operation.warmUp cs).run cache = (.ok (), fresh)) ∧
      ∀ id,
        fresh.challengeDocument? id = (lastWith (·.id) id cs).map Challenge.print ∧
        fresh.goalCount id = ((lastWith (·.id) id cs).map fun c => c.goals.length).getD 0 ∧
        fresh.goalDocument? id =
          (lastWith (·.id) id (cs.flatMap (·.goals))).map Goal.print := by
  refine ⟨empty.loaded cs, ofChallenges_eq cs, run_warmUp cs, fun id => ⟨?_, ?_, ?_⟩⟩
  · exact challengeDocument?_loaded empty cs id
  · exact goalCount_loaded empty cs id
  · exact goalDocument?_loaded empty cs id

end GoalProgress.Cache
