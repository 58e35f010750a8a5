import GoalProgress.Proofs.Cache
import GoalProgress.Proofs.Definition.Repetition
import GoalProgress.Proofs.Progress.Suffix
import GoalProgress.Proofs.Response
import GoalProgress.Proofs.Splice.Challenge

/-!
# Responses from definitions

Once definitions are loaded, every response is decided by them: a request fails only if it names
something that is not defined, and whatever is shown is a JSON text. A goal is shown its record by
its id; inside a challenge it is shown the record that is found under the id cut out of its
document.

## Main definitions

* `showLast`: what is shown for the last entry with an id.
* `Cache.builder`: the responses from a cache.
-/
namespace GoalProgress

open Json

/-! ## What is shown -/

/-- The document of a goal with the state of a record, as a tree. -/
def Goal.shownTree (g : Goal) (record : Option ProgressRecord) : Tree :=
  g.tree (Suffix.members record)

theorem Goal.text_shownTree (g : Goal) (record : Option ProgressRecord) :
    (g.shownTree record).text = g.shown record := by
  rw [shownTree, text_tree, Suffix.flatMap_members, shown]

/-- A challenge with the progress that is found for every goal, as a tree. -/
def Challenge.shownTree (c : Challenge) (lookup : Lookup) : Tree :=
  c.tree (c.goals.map fun g => g.shownTree (lookup.get? g.scannedId))

theorem Challenge.text_shownTree (c : Challenge) (lookup : Lookup) :
    (c.shownTree lookup).text = c.spliced lookup := by
  rw [shownTree, text_tree, List.map_map]
  simp only [Function.comp_def, Goal.text_shownTree, spliced]

/-- An envelope with JSON values in it is a JSON text. -/
theorem ResponseBuilder.isText_envelope (trees : List Tree) :
    IsText (envelopeOpen ++ joined (trees.map Tree.text) ++ envelopeClose) := by
  have hopen : Byte.openBrace :: (quoted .full "challenges" ++ [Byte.colon, Byte.openBracket]) =
      envelopeOpen := by decide
  have hclose : [Byte.closeBracket, Byte.closeBrace] = envelopeClose := by decide
  have htext : (Tree.compactObject [("challenges", .compactArray trees)]).text =
      envelopeOpen ++ joined (trees.map Tree.text) ++ envelopeClose := by
    rw [← hopen, ← hclose]
    simp [joined_cons]
  rw [← htext]
  exact Tree.isText _

/-- What is shown for the last entry with an id, or the error that there is none. -/
def showLast {α : Type} (key : α → String) (id : String) (as : List α) (shown : α → Bytes)
    (missing : Error) : Except Error Bytes :=
  match lastWith key id as with
  | some a => .ok (shown a)
  | none => .error missing

section

variable {α : Type} {key : α → String} {as : List α} {shown : α → Bytes} {missing : Error}

theorem showLast_of_nodup (h : (as.map key).Nodup) {a : α} (ha : a ∈ as) :
    showLast key (key a) as shown missing = .ok (shown a) := by
  rw [showLast, lastWith_of_nodup h ha]

/-- If everything that may be shown is a JSON text, the only failure is an unknown id. -/
theorem showLast_render (id : String) (htext : ∀ a, IsText (shown a)) :
    if id ∈ as.map key then
      ∃ body, showLast key id as shown missing = .ok body ∧ IsText body
    else showLast key id as shown missing = .error missing := by
  rw [showLast]
  cases h : lastWith key id as with
  | none => rw [if_neg (lastWith_eq_none_iff.1 h)]
  | some a =>
    obtain ⟨hmem, rfl⟩ := lastWith_eq_some h
    rw [if_pos (List.mem_map_of_mem hmem)]
    exact ⟨_, rfl, htext a⟩

end

/-! ## Responses after loading -/

namespace Cache

/-- The responses from a cache. -/
def builder (cache : Cache) (sizing : Sizing) : ResponseBuilder := ⟨some cache.store, sizing⟩

variable (cache : Cache) (cs : List Challenge) (sizing : Sizing)

theorem goal_loaded (id : String) (record : Option ProgressRecord) :
    ((cache.loaded cs).builder sizing).goal id record =
      showLast (·.id) id (cs.flatMap (·.goals)) (·.shown record) (.goalNotFound id) := by
  have hdoc : (cache.loaded cs).store.goal? id = _ := cache.goalDocument?_loaded cs id
  rw [ResponseBuilder.goal, builder, ResponseBuilder.store, showLast]
  simp only [bind, Except.bind, hdoc]
  cases lastWith (·.id) id (cs.flatMap (·.goals)) with
  | none => rfl
  | some g =>
    simp only [Option.map_some, g.splice_print]
    rfl

theorem challenge_loaded (id : String) (lookup : Lookup) :
    ((cache.loaded cs).builder sizing).challenge id lookup =
      showLast (·.id) id cs (·.spliced lookup) (.challengeNotFound id) := by
  have hdoc : (cache.loaded cs).store.challenge? id = _ := cache.challengeDocument?_loaded cs id
  rw [ResponseBuilder.challenge_eq, builder, showLast]
  simp only [hdoc]
  cases lastWith (·.id) id cs with
  | none => rfl
  | some c => simp only [Option.map_some, c.splice_print]

theorem challenges_loaded (ids : List String) (lookup : Lookup) :
    ((cache.loaded cs).builder sizing).challenges ids lookup =
      match ids.find? (· ∉ cs.map (·.id)) with
      | some id => .error (.challengeNotFound id)
      | none => .ok (ResponseBuilder.envelopeOpen ++
          joined ((ids.filterMap (lastWith (·.id) · cs)).map (·.spliced lookup)) ++
          ResponseBuilder.envelopeClose) := by
  have hdocs : (cache.loaded cs).store.challenge? = fun id =>
      (lastWith (·.id) id cs).map Challenge.print := by
    funext id
    exact cache.challengeDocument?_loaded cs id
  have hunknown (id : String) : ((lastWith (·.id) id cs).map Challenge.print).isNone =
      decide (id ∉ cs.map (·.id)) := by
    rw [Option.isNone_map, Bool.eq_iff_iff, Option.isNone_iff_eq_none, lastWith_eq_none_iff,
      decide_eq_true_iff]
  have hspliced (chosen : List Challenge) :
      ResponseBuilder.collect ((chosen.map Challenge.print).map (Splice.challenge · lookup)) =
        .ok (chosen.map (·.spliced lookup)) := by
    induction chosen with
    | nil => rfl
    | cons c chosen ih =>
      rw [List.map_cons, List.map_cons, c.splice_print, ResponseBuilder.collect_ok, ih]
      rfl
  have hchosen : ids.filterMap (fun id => (lastWith (·.id) id cs).map Challenge.print) =
      (ids.filterMap (lastWith (·.id) · cs)).map Challenge.print := by
    rw [List.map_filterMap]
  rw [ResponseBuilder.challenges_eq_respond, builder]
  simp only [Option.map_some, hdocs, ResponseBuilder.respond, hunknown, hchosen, hspliced]
  rfl

variable {cs}

/-- The envelope of challenges that are found under their ids. -/
theorem challenges_loaded_of_last {chosen : List Challenge}
    (h : ∀ c ∈ chosen, lastWith (·.id) c.id cs = some c) (lookup : Lookup) :
    ((cache.loaded cs).builder sizing).challenges (chosen.map (·.id)) lookup =
      .ok (ResponseBuilder.envelopeOpen ++ joined (chosen.map (·.spliced lookup)) ++
        ResponseBuilder.envelopeClose) := by
  have hknown : (chosen.map (·.id)).find? (· ∉ cs.map (·.id)) = none := by
    rw [List.find?_eq_none]
    intro id hid
    obtain ⟨c, hc, rfl⟩ := List.mem_map.1 hid
    simpa using ⟨c, (lastWith_eq_some (h c hc)).1, rfl⟩
  have hlast : (chosen.map (·.id)).filterMap (lastWith (·.id) · cs) = chosen := by
    clear hknown
    induction chosen with
    | nil => rfl
    | cons c chosen ih =>
      rw [List.forall_mem_cons] at h
      rw [List.map_cons, List.filterMap_cons, h.1, ih h.2]
  rw [challenges_loaded, hknown, hlast]

/-- **Definitions always load and always render.** Whatever their texts and ids are, a response
fails only for an id that is not defined, and is a JSON text otherwise. -/
theorem exists_warmUp_render (cache : Cache) (cs : List Challenge) :
    ∃ warm, cache.warmUp cs = .ok warm ∧ ∀ sizing,
      (∀ (ids : List String) lookup,
        match ids.find? (· ∉ cs.map (·.id)) with
        | some id => (warm.builder sizing).challenges ids lookup = .error (.challengeNotFound id)
        | none => ∃ body, (warm.builder sizing).challenges ids lookup = .ok body ∧ IsText body) ∧
      (∀ id lookup,
        if id ∈ cs.map (·.id) then
          ∃ body, (warm.builder sizing).challenge id lookup = .ok body ∧ IsText body
        else (warm.builder sizing).challenge id lookup = .error (.challengeNotFound id)) ∧
      ∀ id record,
        if id ∈ (cs.flatMap (·.goals)).map (·.id) then
          ∃ body, (warm.builder sizing).goal id record = .ok body ∧ IsText body
        else (warm.builder sizing).goal id record = .error (.goalNotFound id) := by
  refine ⟨cache.loaded cs, cache.warmUp_eq cs, fun sizing => ⟨?_, ?_, ?_⟩⟩
  · intro ids lookup
    have h := cache.challenges_loaded cs sizing ids lookup
    cases hfind : ids.find? (· ∉ cs.map (·.id)) with
    | some id =>
      rw [hfind] at h
      exact h
    | none =>
      rw [hfind] at h
      refine ⟨_, h, ?_⟩
      have htrees := ResponseBuilder.isText_envelope
        ((ids.filterMap (lastWith (·.id) · cs)).map (·.shownTree lookup))
      simpa [Function.comp_def, Challenge.text_shownTree] using htrees
  · intro id lookup
    rw [cache.challenge_loaded]
    refine showLast_render id fun c => ?_
    rw [← c.text_shownTree]
    exact Tree.isText _
  · intro id record
    rw [cache.goal_loaded]
    refine showLast_render id fun g => ?_
    rw [← g.text_shownTree]
    exact Tree.isText _

end Cache

end GoalProgress
