import GoalProgress.Cache
import GoalProgress.Snapshot.Varint

/-!
# Snapshots of the cache

A snapshot is a binary file with the contents of a cache. It starts with the version of the format
and the version of the program that wrote it; texts, documents and lists are preceded by their
lengths. Bytes after the last goal are ignored. A snapshot is taken into use only if both versions
are the present ones and every document passes the check.

## Main definitions

* `Snapshot`: the contents of the file.
* `Snapshot.encode`, `Snapshot.decode`: its bytes.
* `Cache.toSnapshot`, `Cache.ofSnapshot`: between a snapshot and a cache.
-/
namespace GoalProgress

/-- A challenge in a snapshot. -/
structure SnapshotChallenge where
  id : String
  document : Bytes
  goalIds : List String
deriving DecidableEq, Repr

/-- The contents of a snapshot file. -/
structure Snapshot where
  version : Nat
  /-- The version of the program that wrote the file. -/
  writer : String
  challenges : List SnapshotChallenge
  goals : List (String × Bytes)
deriving DecidableEq, Repr

namespace Snapshot

/-- The version of the format. -/
def currentVersion : Nat := 1

/-- The version of the program. -/
def currentWriter : String := "0.1.0"

/-! ## Encoding -/

/-- A length and as many bytes. -/
def encodeBytes (bs : Bytes) : Bytes := Varint.encode bs.length ++ bs

/-- The UTF-8 bytes of a text with their length. -/
def encodeText (s : String) : Bytes := encodeBytes (Bytes.ofString s)

/-- A count and as many elements. -/
def encodeList {α : Type} (element : α → Bytes) (as : List α) : Bytes :=
  Varint.encode as.length ++ as.flatMap element

/-- The bytes of a challenge. -/
def encodeChallenge (c : SnapshotChallenge) : Bytes :=
  encodeText c.id ++ encodeBytes c.document ++ encodeList encodeText c.goalIds

/-- The bytes of a goal. -/
def encodeGoal (g : String × Bytes) : Bytes := encodeText g.1 ++ encodeBytes g.2

/-- The bytes of a snapshot file. -/
def encode (s : Snapshot) : Bytes :=
  Varint.encode s.version ++ encodeText s.writer ++ encodeList encodeChallenge s.challenges ++
    encodeList encodeGoal s.goals

/-! ## Decoding -/

/-- A length and as many bytes. -/
def decodeBytes (bs : Bytes) : Except DecodeProblem (Bytes × Bytes) := do
  let (n, rest) ← Varint.decode .word64 bs
  if rest.length < n then throw .endOfBuffer
  return (rest.take n, rest.drop n)

/-- The UTF-8 bytes of a text with their length. -/
def decodeText (bs : Bytes) : Except DecodeProblem (String × Bytes) := do
  let (text, rest) ← decodeBytes bs
  match text.toString? with
  | some s => return (s, rest)
  | none => throw .badUtf8

/-- A given count of elements. -/
def decodeElements {α : Type} (element : Bytes → Except DecodeProblem (α × Bytes)) :
    Nat → Bytes → Except DecodeProblem (List α × Bytes)
  | 0, bs => .ok ([], bs)
  | n + 1, bs => do
    let (a, rest) ← element bs
    let (as, rest) ← decodeElements element n rest
    return (a :: as, rest)

/-- A count and as many elements. -/
def decodeList {α : Type} (element : Bytes → Except DecodeProblem (α × Bytes)) (bs : Bytes) :
    Except DecodeProblem (List α × Bytes) := do
  let (n, rest) ← Varint.decode .word64 bs
  decodeElements element n rest

/-- A challenge. -/
def decodeChallenge (bs : Bytes) : Except DecodeProblem (SnapshotChallenge × Bytes) := do
  let (id, rest) ← decodeText bs
  let (document, rest) ← decodeBytes rest
  let (goalIds, rest) ← decodeList decodeText rest
  return (⟨id, document, goalIds⟩, rest)

/-- A goal. -/
def decodeGoal (bs : Bytes) : Except DecodeProblem ((String × Bytes) × Bytes) := do
  let (id, rest) ← decodeText bs
  let (document, rest) ← decodeBytes rest
  return ((id, document), rest)

/-- The snapshot at the start of the bytes. -/
def decode (bs : Bytes) : Except DecodeProblem Snapshot := do
  let (version, rest) ← Varint.decode .word32 bs
  let (writer, rest) ← decodeText rest
  let (challenges, rest) ← decodeList decodeChallenge rest
  let (goals, _) ← decodeList decodeGoal rest
  return ⟨version, writer, challenges, goals⟩

end Snapshot

namespace Cache

/-- The contents of a cache, with the present versions. -/
def toSnapshot (cache : Cache) : Snapshot where
  version := Snapshot.currentVersion
  writer := Snapshot.currentWriter
  challenges := cache.challenges.toList.map fun (id, e) => ⟨id, e.document, e.goalIds⟩
  goals := cache.goals.toList

/-- The cache after adding goal documents that pass the check. -/
def restoreGoals (cache : Cache) : List (String × Bytes) → Except Error Cache
  | [] => .ok cache
  | (id, doc) :: goals => do
    Document.check id doc
    restoreGoals (cache.insertGoal id doc) goals

/-- The cache after adding challenge documents that pass the check. -/
def restoreChallenges (cache : Cache) : List SnapshotChallenge → Except Error Cache
  | [] => .ok cache
  | c :: challenges => do
    Document.check c.id c.document
    restoreChallenges (cache.insertChallenge c.id ⟨c.document, c.goalIds⟩) challenges

/-- The cache with the contents of a snapshot. -/
def ofSnapshot (s : Snapshot) : Except Error Cache := do
  if s.version ≠ Snapshot.currentVersion then throw (.snapshot (.version s.version))
  if s.writer ≠ Snapshot.currentWriter then throw (.snapshot (.writer s.writer))
  (← empty.restoreGoals s.goals).restoreChallenges s.challenges

/-- The cache in the bytes of a snapshot file. -/
def ofSnapshotBytes (bs : Bytes) : Except Error Cache :=
  match Snapshot.decode bs with
  | .ok s => ofSnapshot s
  | .error problem => .error (.snapshot (.decode problem))

end Cache

end GoalProgress
