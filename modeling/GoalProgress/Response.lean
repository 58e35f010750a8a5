import GoalProgress.Cache
import GoalProgress.Response.Sizing
import GoalProgress.Splice.Buffer

/-!
# Responses

A response is built from static documents with the progress of one user spliced in: several
challenges in an envelope, a single challenge, or a single goal. An unknown id fails the whole
response, and all ids are looked up before anything is spliced.

## Main definitions

* `DocumentStore`: where documents come from.
* `ResponseBuilder.challenges`, `ResponseBuilder.challenge`, `ResponseBuilder.goal`: the responses.
* `ResponseBuilder.challengesRoom`, `ResponseBuilder.challengeRoom`: the room reserved for them.
-/
namespace GoalProgress

/-- Static documents by id, and the number of goals that each challenge is said to have. -/
structure DocumentStore where
  challenge? : String → Option Bytes
  goal? : String → Option Bytes
  goalCount : String → ByteCount

/-- The documents of a cache. -/
def Cache.store (cache : Cache) : DocumentStore where
  challenge? := cache.challengeDocument?
  goal? := cache.goalDocument?
  goalCount id := .clip (cache.goalCount id)

/-- What responses are built from: documents, if there are any, and the allowances of the
estimate. -/
structure ResponseBuilder where
  store? : Option DocumentStore
  sizing : Sizing := {}

namespace ResponseBuilder

variable (builder : ResponseBuilder)

/-- The bytes before the challenges of a response. -/
def envelopeOpen : Bytes := Bytes.ofString "\x7b\"challenges\":["

/-- The bytes after the challenges of a response. -/
def envelopeClose : Bytes := Bytes.ofString "]\x7d"

/-- The response without any challenges. -/
def noChallenges : Bytes := Bytes.ofString "\x7b\"challenges\":[]\x7d"

/-- The documents. -/
def store : Except Error DocumentStore :=
  match builder.store? with
  | some store => .ok store
  | none => .error .cacheUnavailable

/-- The document of a challenge that has to be known. -/
def document (store : DocumentStore) (id : String) : Except Error Bytes :=
  match store.challenge? id with
  | some doc => .ok doc
  | none => .error (.challengeNotFound id)

/-- A buffer after appending the spliced forms of documents, with a comma before each of them but
the first. -/
def appendAll (lookup : Lookup) (out : Bytes) (first : Bool) : List Bytes → Except Error Bytes
  | [] => .ok out
  | doc :: docs => do
    let (out, result) :=
      Splice.appendChallenge (if first then out else out ++ [Byte.comma]) doc lookup
    result
    appendAll lookup out false docs

/-- The challenges with the given ids, in this order, in an envelope. -/
def challenges (ids : List String) (lookup : Lookup) : Except Error Bytes := do
  let store ← builder.store
  if ids.isEmpty then return noChallenges
  let docs ← ids.mapM (document store)
  let out ← appendAll lookup envelopeOpen true docs
  return out ++ envelopeClose

/-- A single challenge. -/
def challenge (id : String) (lookup : Lookup) : Except Error Bytes := do
  let store ← builder.store
  let doc ← document store id
  let (out, result) := Splice.appendChallenge [] doc lookup
  result
  return out

/-- A single goal. -/
def goal (id : String) (record : Option ProgressRecord) : Except Error Bytes := do
  let store ← builder.store
  match store.goal? id with
  | some doc => return Splice.goal doc record
  | none => throw (.goalNotFound id)

/-! ## Room -/

/-- The room for an envelope with the given challenges. -/
def room (store : DocumentStore) (docs : List (String × Bytes)) : ByteCount :=
  let static := docs.foldl (fun n d => ByteCount.plus n (.clip d.2.length)) 0
  let goals := docs.foldl (fun n d => ByteCount.plus n (store.goalCount d.1)) 0
  let envelope := ByteCount.clip (envelopeOpen.length + envelopeClose.length)
  builder.sizing.reserve (static.plus envelope) goals builder.sizing.envelopeOverhead

/-- The room reserved for the response with the given challenges. -/
def challengesRoom (ids : List String) : Except Error ByteCount := do
  let store ← builder.store
  if ids.isEmpty then return .clip noChallenges.length
  let docs ← ids.mapM fun id => (document store id).map (id, ·)
  return builder.room store docs

/-- The room reserved for the response with a single challenge. -/
def challengeRoom (id : String) : Except Error ByteCount := do
  let store ← builder.store
  let doc ← document store id
  return builder.sizing.reserve (.clip doc.length) (store.goalCount id) 0

end ResponseBuilder

end GoalProgress
