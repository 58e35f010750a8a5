import GoalProgress.Proofs.Cache.Reload
import GoalProgress.Proofs.Definition.Occurrence
import GoalProgress.Proofs.Definition.RoundTrip
import GoalProgress.Proofs.Json.Frame

/-!
# What a cache holds of definitions

Definitions without repeated ids are cached one to one: every challenge and every goal has exactly
one document, which is its own print, and the document of a challenge shows the documents of its
goals one by one. With a repeated id one document would take the place of another, and such
definitions are not accepted in the first place.

## Main definitions

* `ShowsGoals`: a document that shows other documents as its goals.
* `Cache.Holds`: a cache that holds definitions one to one.
-/
namespace GoalProgress

open Json

/-- A JSON object with exactly one member of the name of the goals. The value of the member is an
array, and the texts of its items are the given ones. -/
def ShowsGoals (doc : Bytes) (goals : List Bytes) : Prop :=
  ∃ (frame : Frame) (items : List Tree),
    doc = Tree.paddedText (frame.fill (.compactArray items)) ∧
    frame.hole.name.value = .text "goals" ∧
    (∀ m ∈ frame.left ++ frame.right, m.name.value ≠ .text "goals") ∧
    items.map Tree.text = goals

/-- **The document of a challenge shows the documents of its goals, one by one.** -/
theorem Challenge.showsGoals_print (c : Challenge) :
    ShowsGoals c.print (c.goals.map Goal.print) := by
  have hother {name : String} (h : isVerbatim (Bytes.ofString name) = true) (hne : name ≠ "goals")
      (t : Tree) : (Tree.member name t).name.value ≠ .text "goals" :=
    StringText.value_ofString_ne EscapeStyle.full_sound h hne
  refine ⟨{
    before := .none
    after := .none
    space := .none
    left := [Tree.member "challengeId" (.ofString c.id), Tree.member "name" (.ofString c.name),
      Tree.member "description" (.ofString c.description)]
    hole := ⟨.none, .ofString EscapeStyle.full_sound "goals", .none, ⟨.none, (), .none⟩⟩
    right := [] }, c.goals.map (·.tree []), ?_, ?_, ?_, ?_⟩
  · rw [← text_tree_print]
    exact (Tree.paddedText_tight _).symm
  · exact StringText.value_ofString EscapeStyle.full_sound (by decide)
  · simp only [List.append_nil, List.forall_mem_cons]
    exact ⟨hother (by decide) (by decide) _, hother (by decide) (by decide) _,
      hother (by decide) (by decide) _, nofun⟩
  · rw [List.map_map]
    exact List.map_congr_left fun g _ => g.text_tree_nil

namespace Cache

/-- A cache that holds definitions one to one: one document for every challenge and every goal, each
under its id. -/
structure Holds (cache : Cache) (cs : List Challenge) : Prop where
  challenges : cache.challenges.toList.Perm
    (cs.map fun c => (c.id, ⟨c.print, c.goals.map (·.id)⟩))
  goals : cache.goals.toList.Perm ((cs.flatMap (·.goals)).map fun g => (g.id, g.print))
  challengeDocument : ∀ c ∈ cs, cache.challengeDocument? c.id = some c.print
  goalDocument : ∀ c ∈ cs, ∀ g ∈ c.goals, cache.goalDocument? g.id = some g.print
  goalCount : ∀ c ∈ cs, cache.goalCount c.id = c.goals.length
  /-- The goals that the document of a challenge shows are the documents under their ids. -/
  shown : ∀ c ∈ cs, ∃ doc goals, cache.challengeDocument? c.id = some doc ∧ ShowsGoals doc goals ∧
    c.goals.map (fun g => cache.goalDocument? g.id) = goals.map some
  stats : cache.stats = {
    challenges := cs.length
    goals := (cs.flatMap (·.goals)).length
    totalBytes := totalLength (cs.map Challenge.print) +
      totalLength ((cs.flatMap (·.goals)).map Goal.print) }

/-- Documents are counted in any order. -/
theorem totalLength_eq_of_perm {docs docs' : List Bytes} (h : docs.Perm docs') :
    totalLength docs = totalLength docs' :=
  h.foldl_eq' (fun doc _ doc' _ n => Nat.add_right_comm n doc.length doc'.length) 0

variable {cs : List Challenge}

theorem challenges_loaded_perm (h : (cs.map (·.id)).Nodup) :
    (empty.loaded cs).challenges.toList.Perm
      (cs.map fun c => (c.id, ⟨c.print, c.goals.map (·.id)⟩)) := by
  refine toList_perm_of_getElem? (by rwa [List.map_map]) fun id => ?_
  rw [lastWith_map, Option.map_map]
  exact challenge?_loaded empty cs id

theorem goals_loaded_perm (h : ((cs.flatMap (·.goals)).map (·.id)).Nodup) :
    (empty.loaded cs).goals.toList.Perm
      ((cs.flatMap (·.goals)).map fun g => (g.id, g.print)) := by
  refine toList_perm_of_getElem? (by rwa [List.map_map]) fun id => ?_
  rw [lastWith_map, Option.map_map]
  exact goalDocument?_loaded empty cs id

/-- How much a cache holds, by its entries in any order. -/
theorem stats_eq_of_perm {cache : Cache} {challenges : List (String × ChallengeEntry)}
    {goals : List (String × Bytes)} (hchallenges : cache.challenges.toList.Perm challenges)
    (hgoals : cache.goals.toList.Perm goals) :
    cache.stats = {
      challenges := challenges.length
      goals := goals.length
      totalBytes := totalLength (challenges.map (·.2.document)) +
        totalLength (goals.map (·.2)) } := by
  rw [stats, ← Std.ExtTreeMap.length_toList, ← Std.ExtTreeMap.length_toList,
    hchallenges.length_eq, hgoals.length_eq, totalLength_eq_of_perm (hchallenges.map _),
    totalLength_eq_of_perm (hgoals.map _)]

/-- **Definitions without repeated ids are cached one to one.** -/
theorem holds_loaded (hchallenges : (cs.map (·.id)).Nodup)
    (hgoals : ((cs.flatMap (·.goals)).map (·.id)).Nodup) : (empty.loaded cs).Holds cs := by
  have hdocument : ∀ c ∈ cs, (empty.loaded cs).challengeDocument? c.id = some c.print := by
    intro c hc
    rw [challengeDocument?_loaded, lastWith_of_nodup hchallenges hc]
    rfl
  have hgoal : ∀ c ∈ cs, ∀ g ∈ c.goals, (empty.loaded cs).goalDocument? g.id = some g.print := by
    intro c hc g hg
    rw [goalDocument?_loaded, lastWith_of_nodup hgoals (List.mem_flatMap.2 ⟨c, hc, hg⟩)]
    rfl
  refine ⟨challenges_loaded_perm hchallenges, goals_loaded_perm hgoals, hdocument, hgoal,
    fun c hc => ?_, fun c hc => ?_, ?_⟩
  · rw [goalCount_loaded, lastWith_of_nodup hchallenges hc]
    rfl
  · refine ⟨c.print, c.goals.map Goal.print, hdocument c hc, c.showsGoals_print, ?_⟩
    rw [List.map_map]
    exact List.map_congr_left (hgoal c hc)
  · rw [stats_eq_of_perm (challenges_loaded_perm hchallenges) (goals_loaded_perm hgoals)]
    simp only [List.length_map, List.map_map]
    rfl

/-- A cache holds definitions one to one only if no id is repeated. -/
theorem Holds.nodup {cache : Cache} (h : cache.Holds cs) :
    (cs.map (·.id)).Nodup ∧ ((cs.flatMap (·.goals)).map (·.id)).Nodup := by
  have hchallenges := (h.challenges.map (·.1)).nodup_iff.1 (nodup_keys_toList _)
  have hgoals := (h.goals.map (·.1)).nodup_iff.1 (nodup_keys_toList _)
  rw [List.map_map] at hchallenges hgoals
  exact ⟨hchallenges, hgoals⟩

end Cache

namespace Definition

/-- **Definitions are cached one to one exactly if they are accepted.** Definitions that are read
are accepted exactly if no two challenges have the same id and no two goals have, not even in
different challenges. Otherwise they are refused for the first id, in their order, that has occurred
before. The cache that they are loaded into holds one document for every challenge and every goal
exactly if they are accepted. -/
theorem parse_of_decode {text : Bytes} {cs : List Challenge} (h : decode text = .ok cs)
    (path : String) :
    (parse text path = .ok cs ↔
      (cs.map (·.id)).Nodup ∧ ((cs.flatMap (·.goals)).map (·.id)).Nodup) ∧
    (∀ found, parse text path = .ok found → found = cs) ∧
    (∀ e, parse text path = .error e ↔
      ∃ o, Repeated (occurrences cs) o ∧ e = .config o.fault (some path)) ∧
    ∃ cache, Cache.ofChallenges cs = .ok cache ∧ (cache.Holds cs ↔ parse text path = .ok cs) := by
  have haccepted : parse text path = .ok cs ↔
      (cs.map (·.id)).Nodup ∧ ((cs.flatMap (·.goals)).map (·.id)).Nodup := by
    rw [parse_eq_ok_iff, firstRepetition?_eq_none_iff]
    exact and_iff_right h
  refine ⟨haccepted, fun found hfound => ?_, fun e => parse_eq_error_iff h,
    Cache.empty.loaded cs, Cache.ofChallenges_eq cs, ?_⟩
  · exact Except.ok.inj ((parse_eq_ok_iff.1 hfound).1.symm.trans h)
  · rw [haccepted]
    exact ⟨fun hholds => hholds.nodup, fun hnodup => Cache.holds_loaded hnodup.1 hnodup.2⟩

/-- A goal by its id. -/
def plainGoal (id : String) : Goal where
  id
  name := ""
  requirement := { statCode := "", targetValue := 0 }
  reward := ⟨.item, "", 0⟩

/-- Two challenges that share a goal, and the first one once more. A challenge and a goal may share
an id. -/
def clashing : List Challenge := [
  { id := "c", name := "", goals := [plainGoal "g", plainGoal "c"] },
  { id := "d", name := "", goals := [plainGoal "h", plainGoal "g"] },
  { id := "c", name := "" }]

/-- Definitions that need escapes are cached one to one; of two repetitions the first one is
reported. -/
theorem parse_of_decode_samples :
    (decode (Challenge.printAll awkward) = .ok awkward ∧
      ∃ cache, Cache.ofChallenges awkward = .ok cache ∧ cache.Holds awkward) ∧
    decode (Challenge.printAll clashing) = .ok clashing ∧
      ∃ e, parse (Challenge.printAll clashing) "d.json" = .error e ∧
        e.message = "config error: duplicate goal id: g (in d)" := by
  refine ⟨⟨decode_printAll awkward, ?_⟩, decode_printAll clashing, ?_⟩
  · obtain ⟨haccepted, _, _, cache, hcache, hholds⟩ :=
      parse_of_decode (decode_printAll awkward) "d.json"
    exact ⟨cache, hcache, hholds.2 (haccepted.2 (by decide))⟩
  · obtain ⟨_, _, hrefused, _⟩ := parse_of_decode (decode_printAll clashing) "d.json"
    have hrepeated : Repeated (occurrences clashing) ⟨.goal "g", "d"⟩ :=
      ⟨(occurrences clashing).take 5, (occurrences clashing).drop 6, rfl, by decide, by decide⟩
    exact ⟨_, (hrefused _).2 ⟨_, hrepeated, rfl⟩, by decide⟩

end Definition

end GoalProgress
