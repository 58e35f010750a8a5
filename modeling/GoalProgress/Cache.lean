import GoalProgress.Definition.Printer
import GoalProgress.Document
import Std.Data.ExtTreeMap

/-!
# The document cache

The cache holds the static documents of challenges and goals by id. Documents come from definitions,
which replace everything that was there, or are added one challenge at a time. Every document is
checked before it is added, and nothing is changed unless all documents of an operation pass.

## Main definitions

* `Cache.warmUp`: replace the contents by the documents of definitions.
* `Cache.insertRaw`: add a challenge that is already printed.
* `Cache.stats`: how much the cache holds.
-/
namespace GoalProgress

/-- A challenge document and the ids of its goals. -/
structure ChallengeEntry where
  document : Bytes
  goalIds : List String
deriving DecidableEq, Repr

/-- The static documents of challenges and goals by id. -/
structure Cache where
  challenges : Std.ExtTreeMap String ChallengeEntry
  goals : Std.ExtTreeMap String Bytes

/-- How much a cache holds. -/
structure CacheStats where
  challenges : Nat
  goals : Nat
  totalBytes : Nat
deriving DecidableEq, Repr

/-- The documents of one challenge, ready for insertion. -/
structure Prepared where
  id : String
  document : Bytes
  goals : List (String × Bytes)

namespace Prepared

/-- Every document is fit for caching: the challenge first, then the goals in order. -/
def check (p : Prepared) : Except Error Unit := do
  Document.check p.id p.document
  p.goals.forM fun (id, doc) => Document.check id doc

/-- The documents of a defined challenge. -/
def ofChallenge (c : Challenge) : Prepared where
  id := c.id
  document := c.print
  goals := c.goals.map fun g => (g.id, g.print)

end Prepared

namespace Cache

variable (cache : Cache)

/-- No documents. -/
def empty : Cache := ⟨∅, ∅⟩

/-- The document of a challenge. -/
def challengeDocument? (id : String) : Option Bytes := cache.challenges[id]?.map (·.document)

/-- The document of a goal. -/
def goalDocument? (id : String) : Option Bytes := cache.goals[id]?

/-- The number of goals of a challenge, zero for an unknown one. -/
def goalCount (id : String) : Nat := (cache.challenges[id]?.map (·.goalIds.length)).getD 0

/-- The number of bytes in a list of documents. -/
def totalLength (docs : List Bytes) : Nat := docs.foldl (fun n doc => n + doc.length) 0

/-- How much the cache holds. -/
def stats : CacheStats where
  challenges := cache.challenges.size
  goals := cache.goals.size
  totalBytes :=
    totalLength (cache.challenges.toList.map (·.2.document)) +
      totalLength (cache.goals.toList.map (·.2))

/-- Add a goal document, in place of the one that the goal had before. -/
def insertGoal (id : String) (doc : Bytes) : Cache :=
  { cache with goals := cache.goals.insert id doc }

/-- Add a challenge document, in place of the one that the challenge had before. -/
def insertChallenge (id : String) (entry : ChallengeEntry) : Cache :=
  { cache with challenges := cache.challenges.insert id entry }

@[simp] theorem challengeDocument?_empty (id : String) : empty.challengeDocument? id = none := by
  simp [challengeDocument?, empty]

@[simp] theorem goalDocument?_empty (id : String) : empty.goalDocument? id = none := by
  simp [goalDocument?, empty]

@[simp] theorem challengeDocument?_insertGoal (id : String) (doc : Bytes) (other : String) :
    (cache.insertGoal id doc).challengeDocument? other = cache.challengeDocument? other := rfl

theorem goalDocument?_insertGoal (id : String) (doc : Bytes) (other : String) :
    (cache.insertGoal id doc).goalDocument? other =
      if id = other then some doc else cache.goalDocument? other := by
  simp [goalDocument?, insertGoal, Std.ExtTreeMap.getElem?_insert]

theorem challengeDocument?_insertChallenge (id : String) (entry : ChallengeEntry) (other : String) :
    (cache.insertChallenge id entry).challengeDocument? other =
      if id = other then some entry.document else cache.challengeDocument? other := by
  simp only [challengeDocument?, insertChallenge, Std.ExtTreeMap.getElem?_insert]
  by_cases h : id = other <;> simp [h]

@[simp] theorem goalDocument?_insertChallenge (id : String) (entry : ChallengeEntry)
    (other : String) :
    (cache.insertChallenge id entry).goalDocument? other = cache.goalDocument? other := rfl

/-- Add the documents of a challenge, in place of those with the same ids. -/
def insert (p : Prepared) : Cache :=
  (p.goals.foldl (fun cache g => cache.insertGoal g.1 g.2) cache).insertChallenge p.id
    ⟨p.document, p.goals.map (·.1)⟩

/-- Keep only the challenges and goals with the given ids. -/
def retain (challengeIds goalIds : List String) : Cache where
  challenges := cache.challenges.filter fun id _ => challengeIds.contains id
  goals := cache.goals.filter fun id _ => goalIds.contains id

/-- Put the documents of a list of challenges in place of everything that was there. New documents
are added before old ones are removed, so that an id which stays is never missing. -/
def replace (ps : List Prepared) : Cache :=
  (ps.foldl insert cache).retain (ps.map (·.id)) (ps.flatMap fun p => p.goals.map (·.1))

/-- The cache after loading definitions in place of everything that was there. -/
def warmUp (cs : List Challenge) : Except Error Cache := do
  let ps := cs.map Prepared.ofChallenge
  ps.forM Prepared.check
  return cache.replace ps

/-- The cache after adding one challenge that is already printed, and its goals. -/
def insertRaw (p : Prepared) : Except Error Cache := do
  p.check
  return cache.insert p

/-- The cache of a list of definitions. -/
def ofChallenges (cs : List Challenge) : Except Error Cache := empty.warmUp cs

end Cache

end GoalProgress
