import GoalProgress.Proofs.Splice.Buffer
import GoalProgress.Response

/-!
# What a response is

A response to several ids is decided by the documents alone: not by the room that is reserved for
it, nor by how many goals a challenge is said to have. An unknown id counts before any document that
cannot be spliced, and among several failures of one kind the first id in the request decides.

## Main definitions

* `ResponseBuilder.respond`: the response by the documents alone.
-/
namespace GoalProgress.ResponseBuilder

open Json (joined)

/-- The error of a result. -/
def error? : Except Error Bytes → Option Error
  | .ok _ => none
  | .error e => some e

/-- All results, or the first error among them. -/
def collect (results : List (Except Error Bytes)) : Except Error (List Bytes) :=
  match results.findSome? error? with
  | some e => .error e
  | none => .ok (results.filterMap Except.toOption)

/-- The response to several ids, by the documents alone. -/
def respond (documents? : Option (String → Option Bytes)) (ids : List String) (lookup : Lookup) :
    Except Error Bytes :=
  match documents? with
  | none => .error .cacheUnavailable
  | some documents =>
    match ids.find? fun id => (documents id).isNone with
    | some id => .error (.challengeNotFound id)
    | none =>
      (collect ((ids.filterMap documents).map (Splice.challenge · lookup))).map fun bodies =>
        envelopeOpen ++ joined bodies ++ envelopeClose

theorem collect_ok (bs : Bytes) (results : List (Except Error Bytes)) :
    collect (.ok bs :: results) = (collect results).map (bs :: ·) := by
  simp only [collect, List.findSome?_cons, error?, List.filterMap_cons, Except.toOption]
  cases results.findSome? error? <;> rfl

/-! ## Looking up -/

/-- Looking up all ids fails at the first one without a document. -/
theorem mapM_document (store : DocumentStore) (ids : List String) :
    ids.mapM (document store) =
      match ids.find? fun id => (store.challenge? id).isNone with
      | some id => .error (.challengeNotFound id)
      | none => .ok (ids.filterMap store.challenge?) := by
  induction ids with
  | nil => rfl
  | cons id ids ih =>
    rw [List.mapM_cons, ih]
    cases hdoc : store.challenge? id with
    | none => simp [document, hdoc, bind, Except.bind]
    | some doc =>
      rw [List.find?_cons_of_neg (by simp [hdoc]), List.filterMap_cons_some hdoc, document, hdoc]
      cases ids.find? fun id => (store.challenge? id).isNone <;> rfl

/-! ## Splicing -/

theorem appendAll_cons (lookup : Lookup) (out : Bytes) (first : Bool) (doc : Bytes)
    (docs : List Bytes) :
    appendAll lookup out first (doc :: docs) =
      match Splice.challenge doc lookup with
      | .ok bs => appendAll lookup ((if first then out else out ++ [Byte.comma]) ++ bs) false docs
      | .error e => .error e := by
  rw [appendAll, Splice.appendChallenge_eq]
  cases Splice.challenge doc lookup <;> rfl

/-- Behind the first challenge, every further one is appended with a comma before it. -/
theorem appendAll_false (lookup : Lookup) (out : Bytes) (docs : List Bytes) :
    appendAll lookup out false docs =
      (collect (docs.map (Splice.challenge · lookup))).map fun bodies =>
        out ++ bodies.flatMap (Byte.comma :: ·) := by
  induction docs generalizing out with
  | nil => simp [appendAll, collect, Except.map]
  | cons doc docs ih =>
    rw [appendAll_cons, List.map_cons]
    cases Splice.challenge doc lookup with
    | error e => rfl
    | ok bs =>
      simp only [ih, collect_ok]
      cases collect (docs.map (Splice.challenge · lookup)) <;> simp [Except.map]

/-- Appending all challenges fails at the first one that cannot be spliced. -/
theorem appendAll_true (lookup : Lookup) (out : Bytes) (docs : List Bytes) :
    appendAll lookup out true docs =
      (collect (docs.map (Splice.challenge · lookup))).map (out ++ joined ·) := by
  cases docs with
  | nil => simp [appendAll, collect, Except.map]
  | cons doc docs =>
    rw [appendAll_cons, List.map_cons]
    cases Splice.challenge doc lookup with
    | error e => rfl
    | ok bs =>
      simp only [if_true, appendAll_false, collect_ok]
      cases collect (docs.map (Splice.challenge · lookup)) <;> simp [Except.map, Json.joined_cons]

/-! ## Responses -/

variable (builder : ResponseBuilder)

theorem challenges_eq_respond (ids : List String) (lookup : Lookup) :
    builder.challenges ids lookup = respond (builder.store?.map (·.challenge?)) ids lookup := by
  rw [challenges, store]
  cases builder.store? with
  | none => rfl
  | some store =>
    cases ids with
    | nil =>
      have hempty : noChallenges = envelopeOpen ++ joined [] ++ envelopeClose := by decide
      simp only [Option.map_some, respond, List.find?_nil, List.filterMap_nil, List.map_nil]
      exact congrArg Except.ok hempty
    | cons id ids =>
      simp only [Option.map_some, respond, List.isEmpty_cons, mapM_document, bind, Except.bind,
        Bool.false_eq_true, if_false]
      cases (id :: ids).find? fun id => (store.challenge? id).isNone with
      | some id => rfl
      | none =>
        simp only [appendAll_true]
        cases collect (((id :: ids).filterMap store.challenge?).map (Splice.challenge · lookup)) <;>
          rfl

/-- A single challenge is its document, spliced. -/
theorem challenge_eq (id : String) (lookup : Lookup) :
    builder.challenge id lookup =
      match builder.store? with
      | none => .error .cacheUnavailable
      | some store =>
        match store.challenge? id with
        | none => .error (.challengeNotFound id)
        | some doc => Splice.challenge doc lookup := by
  rw [challenge, store]
  cases builder.store? with
  | none => rfl
  | some store =>
    simp only [document, Splice.appendChallenge_eq, bind, Except.bind]
    cases store.challenge? id with
    | none => rfl
    | some doc =>
      simp only
      cases Splice.challenge doc lookup <;> rfl

theorem challenges_singleton (id : String) (lookup : Lookup) :
    builder.challenges [id] lookup =
      (builder.challenge id lookup).map fun bs => envelopeOpen ++ bs ++ envelopeClose := by
  rw [challenges_eq_respond, challenge_eq]
  cases builder.store? with
  | none => rfl
  | some store =>
    cases hdoc : store.challenge? id with
    | none => simp [respond, hdoc, Except.map]
    | some doc =>
      have hknown : ([id].find? fun id => (store.challenge? id).isNone) = none := by simp [hdoc]
      simp only [Option.map_some, respond, hknown, hdoc, List.filterMap_cons_some hdoc,
        List.filterMap_nil, List.map_cons, List.map_nil]
      cases Splice.challenge doc lookup with
      | error e => rfl
      | ok bs =>
        rw [collect_ok]
        simp [collect, Except.map, Json.joined_cons]

/-- **The response builder does what the documents alone decide**, for every store, every count of
goals and all allowances; and an envelope with one challenge is that challenge between the bytes of
the envelope. -/
theorem challenges_refine_respond (ids : List String) (lookup : Lookup) :
    builder.challenges ids lookup = respond (builder.store?.map (·.challenge?)) ids lookup ∧
      ∀ id, builder.challenges [id] lookup =
        (builder.challenge id lookup).map fun bs => envelopeOpen ++ bs ++ envelopeClose :=
  ⟨builder.challenges_eq_respond ids lookup, fun id => builder.challenges_singleton id lookup⟩

end GoalProgress.ResponseBuilder
