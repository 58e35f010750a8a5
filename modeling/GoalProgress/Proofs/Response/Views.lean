import GoalProgress.Proofs.Response.Definitions

/-!
# A goal by itself and inside its challenge

By itself a goal is shown the record under its id. Inside its challenge it is shown the record under
the id that is cut out of its document, which is still escaped. The two agree for every lookup
exactly if the id needs no escapes.
-/
namespace GoalProgress

open Json

theorem Suffix.ofRecord?_ne {goalId : String} :
    ofRecord? (some { goalId := goalId, progress := 1 }) ≠ ofRecord? none := by
  have hone : Decimal.ofInt (1 : Int32).toInt = [0x31] := by
    rw [show (1 : Int32).toInt = Int.ofNat 1 from rfl, Decimal.ofInt,
      Decimal.digits_of_lt (by decide)]
    rfl
  have hrecord : ofRecord? (some { goalId := goalId, progress := 1 }) = Bytes.ofString
      ",\"progress\":1,\"status\":\"not_started\",\"completedAt\":\"\",\"claimedAt\":\"\"" := by
    rw [ofRecord?, ofRecord, hone]
    rfl
  rw [hrecord]
  decide

namespace Goal

variable (g : Goal)

theorem shown_inj {record record' : Option ProgressRecord} (h : g.shown record = g.shown record') :
    Suffix.ofRecord? record = Suffix.ofRecord? record' := by
  rw [shown, shown, printWith, printWith, List.append_assoc, List.append_assoc] at h
  exact List.append_cancel_right (List.append_cancel_left h)

/-- Two ids show the same record of every lookup only if they are equal. -/
theorem shown_get?_iff (id id' : String) :
    (∀ lookup : Lookup, g.shown (lookup.get? id) = g.shown (lookup.get? id')) ↔ id = id' := by
  constructor
  · intro h
    by_cases hid : id' = id
    · exact hid.symm
    · have hlookup := g.shown_inj (h (.ofList [{ goalId := id', progress := 1 }]))
      rw [Lookup.get?_ofList, Lookup.get?_ofList, lastWith_cons, lastWith_cons, if_neg hid,
        if_pos rfl] at hlookup
      exact absurd hlookup.symm Suffix.ofRecord?_ne
  · rintro rfl lookup
    rfl

end Goal

namespace Cache

variable (cache : Cache) {cs : List Challenge} (sizing : Sizing)

/-- The envelope of some of the defined challenges, in any order. -/
theorem challenges_loaded_map (h : (cs.map (·.id)).Nodup) {chosen : List Challenge}
    (hchosen : ∀ c ∈ chosen, c ∈ cs) (lookup : Lookup) :
    ((cache.loaded cs).builder sizing).challenges (chosen.map (·.id)) lookup =
      .ok (ResponseBuilder.envelopeOpen ++ joined (chosen.map (·.spliced lookup)) ++
        ResponseBuilder.envelopeClose) :=
  cache.challenges_loaded_of_last sizing (fun c hc => lastWith_of_nodup h (hchosen c hc)) lookup

/-- **The two views of a goal agree exactly if its id needs no escapes.** -/
theorem views_agree_iff {text : Bytes} {path : String} (h : Definition.parse text path = .ok cs) :
    ∃ warm, cache.warmUp cs = .ok warm ∧
      (∀ c ∈ cs, ∀ lookup, (warm.builder sizing).challenge c.id lookup =
        .ok (c.printWith (c.goals.map fun g => g.shown (lookup.get? g.scannedId)))) ∧
      (∀ chosen : List Challenge, (∀ c ∈ chosen, c ∈ cs) → ∀ lookup,
        (warm.builder sizing).challenges (chosen.map (·.id)) lookup =
          .ok (ResponseBuilder.envelopeOpen ++
            joined (chosen.map fun c =>
              c.printWith (c.goals.map fun g => g.shown (lookup.get? g.scannedId))) ++
            ResponseBuilder.envelopeClose)) ∧
      ∀ c ∈ cs, ∀ g ∈ c.goals,
        (∀ record, (warm.builder sizing).goal g.id record = .ok (g.shown record)) ∧
        ('"' ∉ g.id.toList → g.scannedId = escapeText .full g.id) ∧
        ((∀ lookup : Lookup, g.shown (lookup.get? g.scannedId) = g.shown (lookup.get? g.id)) ↔
          ∀ x ∈ g.id.toList, x ≠ '"' ∧ x ≠ '\\' ∧ 0x20 ≤ x.toNat) := by
  have haccepted := Definition.firstRepetition?_of_parse h
  obtain ⟨hchallenges, hgoals⟩ := (Definition.firstRepetition?_eq_none_iff cs).1 haccepted
  refine ⟨cache.loaded cs, cache.warmUp_eq cs, ?_, ?_, ?_⟩
  · intro c hc lookup
    rw [cache.challenge_loaded]
    exact showLast_of_nodup hchallenges hc
  · intro chosen hchosen lookup
    exact cache.challenges_loaded_map sizing hchallenges hchosen lookup
  · intro c hc g hg
    refine ⟨?_, g.scannedId_eq, (g.shown_get?_iff _ _).trans g.scannedId_eq_id_iff⟩
    intro record
    rw [cache.goal_loaded]
    exact showLast_of_nodup hgoals (List.mem_flatMap.2 ⟨c, hc, hg⟩)

end Cache

/-- A challenge with one goal, whose id has a backslash. -/
def Challenge.escapedId : Challenge where
  id := "c"
  name := "n"
  goals := [{
    id := "a\\b"
    name := "n"
    requirement := ⟨"s", ">=", 1⟩
    reward := ⟨.item, "r", 1⟩ }]

theorem Definition.parse_escapedId :
    parse (Challenge.printAll [.escapedId]) "defs.json" = .ok [.escapedId] := by
  have h : (parse (Challenge.printAll [.escapedId]) "defs.json").toOption = some [.escapedId] := by
    decide +kernel
  cases hparse : parse (Challenge.printAll [.escapedId]) "defs.json" with
  | error e => simp [hparse, Except.toOption] at h
  | ok cs => simpa [hparse, Except.toOption] using h

namespace Cache

theorem views_agree_iff_escapedId :
    Definition.parse (Challenge.printAll [.escapedId]) "defs.json" = .ok [.escapedId] ∧
      ∀ g ∈ Challenge.escapedId.goals,
        ¬ ∀ lookup : Lookup, g.shown (lookup.get? g.scannedId) = g.shown (lookup.get? g.id) := by
  refine ⟨Definition.parse_escapedId, ?_⟩
  intro g hg hagree
  obtain ⟨_, _, _, _, hviews⟩ := empty.views_agree_iff {} Definition.parse_escapedId
  have hplain := (hviews .escapedId List.mem_cons_self g hg).2.2.1 hagree
  rw [List.mem_singleton.1 hg] at hplain
  exact absurd rfl (hplain '\\' (by decide)).2.1

/-- The record under the id of a goal is shown on the goal, but not inside its challenge. -/
theorem views_of_escapedId :
    Definition.parse (Challenge.printAll [.escapedId]) "defs.json" = .ok [.escapedId] ∧
      ∃ warm, empty.warmUp [.escapedId] = .ok warm ∧
        (warm.builder {}).challenge "c" (.ofList [{ goalId := "a\\b", progress := 1 }]) =
          .ok (Challenge.escapedId.printWith (Challenge.escapedId.goals.map (·.shown none))) ∧
        ∀ g ∈ Challenge.escapedId.goals, '"' ∉ g.id.toList ∧
          (warm.builder {}).goal g.id
              ((Lookup.ofList [{ goalId := "a\\b", progress := 1 }]).get? g.id) =
            .ok (g.shown (some { goalId := "a\\b", progress := 1 })) ∧
          g.shown none ≠ g.shown (some { goalId := "a\\b", progress := 1 }) := by
  have hspliced : Challenge.escapedId.spliced (.ofList [{ goalId := "a\\b", progress := 1 }]) =
      Challenge.escapedId.printWith (Challenge.escapedId.goals.map (·.shown none)) := by
    rw [Challenge.spliced, List.map_congr_left]
    intro g hg
    have hscanned : g.scannedId ∉ ["a\\b"] := by
      rw [List.mem_singleton.1 hg]
      decide
    rw [Lookup.get?_ofList, lastWith_eq_none_iff.2 hscanned]
  refine ⟨Definition.parse_escapedId, empty.loaded [.escapedId], empty.warmUp_eq _, ?_, ?_⟩
  · have hlast : lastWith (·.id) "c" [Challenge.escapedId] = some .escapedId := rfl
    rw [challenge_loaded, showLast, hlast]
    exact congrArg Except.ok hspliced
  · intro g hg
    have hfound : lastWith (·.id) g.id ([Challenge.escapedId].flatMap (·.goals)) = some g := by
      rw [List.mem_singleton.1 hg]
      rfl
    have hrecord : (Lookup.ofList [{ goalId := "a\\b", progress := 1 }]).get? g.id =
        some { goalId := "a\\b", progress := 1 } := by
      rw [Lookup.get?_ofList, List.mem_singleton.1 hg]
      rfl
    refine ⟨?_, ?_, fun h => Suffix.ofRecord?_ne (g.shown_inj h).symm⟩
    · rw [List.mem_singleton.1 hg]
      decide
    · rw [goal_loaded, showLast, hfound, hrecord]

end Cache

end GoalProgress
