import GoalProgress.Snapshot

/-!
# Operations on a cache in use

A cache in use is changed write by write, and no write is taken back when something fails later on.
The operations therefore check all documents first. This module has them as programs on one cache,
with the single writes in their order, and the caches that sequences of operations lead to.

## Main definitions

* `CacheM`: programs that change a cache.
* `Cache.Operation`: the operations, with `Cache.Operation.perform` and `Cache.Operation.run`.
* `Cache.after`: the cache after a sequence of operations, some of which may have failed.
-/
namespace GoalProgress

/-- A program that changes a cache. A failure leaves the cache as it stands at that moment. -/
abbrev CacheM := ExceptT Error (StateM Cache)

namespace Cache

/-! ## Writes -/

/-- Write a goal document. -/
def writeGoal (g : String × Bytes) : CacheM Unit := modify fun cache => cache.insertGoal g.1 g.2

/-- Write the documents of a challenge, those of its goals first. -/
def write (p : Prepared) : CacheM Unit := do
  p.goals.forM writeGoal
  modify fun cache => cache.insertChallenge p.id ⟨p.document, p.goals.map (·.1)⟩

/-- Remove the challenges without one of the given ids. -/
def pruneChallenges (ids : List String) : CacheM Unit :=
  modify fun cache =>
    { cache with challenges := cache.challenges.filter fun id _ => ids.contains id }

/-- Remove the goals without one of the given ids. -/
def pruneGoals (ids : List String) : CacheM Unit :=
  modify fun cache =>
    { cache with goals := cache.goals.filter fun id _ => ids.contains id }

/-! ## Operations -/

/-- What can be done to a cache. -/
inductive Operation where
  /-- Load definitions in place of everything that was there. -/
  | warmUp (cs : List Challenge)
  /-- Add one challenge that is already printed, and its goals. -/
  | insertRaw (p : Prepared)
  /-- Take the contents of a snapshot file into use, in place of everything that was there. -/
  | restore (file : Bytes)

namespace Operation

/-- What an operation does to a cache. -/
def perform : Operation → CacheM Unit
  | .warmUp cs => do
    let ps := cs.map Prepared.ofChallenge
    ps.forM fun p => MonadExcept.ofExcept p.check
    ps.forM write
    pruneChallenges (ps.map (·.id))
    pruneGoals (ps.flatMap fun p => p.goals.map (·.1))
  | .insertRaw p => do
    MonadExcept.ofExcept p.check
    write p
  | .restore file => do
    set (← (MonadExcept.ofExcept (ofSnapshotBytes file) : CacheM Cache))

/-- How an operation ends, and the cache that it leaves. -/
def run (op : Operation) (cache : Cache) : Except Error Unit × Cache :=
  Id.run (op.perform.run.run cache)

end Operation

/-- The cache after operations on an empty cache, each of which may have succeeded or failed. -/
def after (ops : List Operation) : Cache := ops.foldl (fun cache op => (op.run cache).2) empty

end Cache

end GoalProgress
