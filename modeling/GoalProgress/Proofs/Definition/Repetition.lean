import GoalProgress.Definition.Reader

/-!
# Definitions without repeated ids

Definitions are accepted exactly if no two challenges have the same id and no two goals have, not
even in different challenges.

## Main definitions

* `Definition.Fresh`: ids that differ from one another and from those seen before.
-/
namespace GoalProgress.Definition

/-- Ids that differ from one another and from those seen before. -/
def Fresh (seen ids : List String) : Prop := ids.Nodup ∧ ∀ id ∈ ids, id ∉ seen

theorem fresh_nil (seen : List String) : Fresh seen [] := ⟨List.nodup_nil, nofun⟩

theorem fresh_cons {seen ids : List String} {id : String} :
    Fresh seen (id :: ids) ↔ id ∉ seen ∧ Fresh (id :: seen) ids := by
  rw [Fresh, Fresh, List.nodup_cons, List.forall_mem_cons]
  constructor
  · rintro ⟨⟨hid, hnodup⟩, hseen, hids⟩
    refine ⟨hseen, hnodup, ?_⟩
    intro x hx hmem
    rcases List.mem_cons.1 hmem with rfl | hmem
    · exact hid hx
    · exact hids x hx hmem
  · rintro ⟨hseen, hnodup, hids⟩
    refine ⟨⟨fun hid => hids id hid List.mem_cons_self, hnodup⟩, hseen, ?_⟩
    exact fun x hx hmem => hids x hx (List.mem_cons_of_mem id hmem)

theorem fresh_append {seen ids ids' : List String} :
    Fresh seen (ids ++ ids') ↔ Fresh seen ids ∧ Fresh (ids.reverse ++ seen) ids' := by
  induction ids generalizing seen with
  | nil => exact ⟨fun h => ⟨fresh_nil seen, h⟩, fun h => h.2⟩
  | cons id ids ih =>
    rw [List.cons_append, fresh_cons, ih, fresh_cons, List.reverse_cons, List.append_assoc,
      List.singleton_append, and_assoc]

/-- The goals of one challenge pass if their ids are fresh, which are then seen as well. -/
theorem repeatedGoal?_eq_ok_iff {challengeId : String} {seen seen' : List String}
    {gs : List Goal} :
    repeatedGoal? challengeId seen gs = .ok seen' ↔
      Fresh seen (gs.map (·.id)) ∧ seen' = (gs.map (·.id)).reverse ++ seen := by
  induction gs generalizing seen with
  | nil =>
    rw [repeatedGoal?, Except.ok.injEq]
    exact ⟨fun h => ⟨fresh_nil seen, h.symm⟩, fun h => h.2.symm⟩
  | cons g gs ih =>
    rw [repeatedGoal?, List.map_cons, fresh_cons, List.reverse_cons, List.append_assoc,
      List.singleton_append]
    by_cases h : g.id ∈ seen
    · simp [h]
    · rw [if_neg h, ih, and_assoc]
      exact ⟨fun hgs => ⟨h, hgs⟩, fun hgs => hgs.2⟩

theorem firstRepetitionFrom_eq_none_iff {seenChallenges seenGoals : List String}
    {cs : List Challenge} :
    firstRepetitionFrom seenChallenges seenGoals cs = none ↔
      Fresh seenChallenges (cs.map (·.id)) ∧
        Fresh seenGoals ((cs.flatMap (·.goals)).map (·.id)) := by
  induction cs generalizing seenChallenges seenGoals with
  | nil => exact iff_of_true rfl ⟨fresh_nil _, fresh_nil _⟩
  | cons c cs ih =>
    rw [firstRepetitionFrom, List.map_cons, fresh_cons, List.flatMap_cons, List.map_append,
      fresh_append]
    by_cases h : c.id ∈ seenChallenges
    · simp [h]
    · rw [if_neg h]
      cases hgoals : repeatedGoal? c.id seenGoals c.goals with
      | error fault =>
        have hfresh : ¬ Fresh seenGoals (c.goals.map (·.id)) := by
          intro hfresh
          rw [repeatedGoal?_eq_ok_iff.2 ⟨hfresh, rfl⟩] at hgoals
          cases hgoals
        simp [hfresh]
      | ok seen =>
        obtain ⟨hfresh, rfl⟩ := repeatedGoal?_eq_ok_iff.1 hgoals
        simp only [ih]
        constructor
        · rintro ⟨hcs, hgs⟩
          exact ⟨⟨h, hcs⟩, hfresh, hgs⟩
        · rintro ⟨⟨_, hcs⟩, _, hgs⟩
          exact ⟨hcs, hgs⟩

/-- **Definitions are accepted exactly if no id is repeated.** -/
theorem firstRepetition?_eq_none_iff (cs : List Challenge) :
    firstRepetition? cs = none ↔
      (cs.map (·.id)).Nodup ∧ ((cs.flatMap (·.goals)).map (·.id)).Nodup := by
  have hfresh (ids : List String) : Fresh [] ids ↔ ids.Nodup :=
    ⟨fun h => h.1, fun h => ⟨h, fun _ _ => List.not_mem_nil⟩⟩
  rw [firstRepetition?, firstRepetitionFrom_eq_none_iff, hfresh, hfresh]

/-- A text is accepted if it denotes definitions without repeated ids. -/
theorem parse_eq_ok_iff {text : Bytes} {path : String} {cs : List Challenge} :
    parse text path = .ok cs ↔ decode text = .ok cs ∧ firstRepetition? cs = none := by
  rw [parse]
  cases decode text with
  | error problem => simp
  | ok found =>
    cases hfirst : firstRepetition? found with
    | some fault =>
      refine iff_of_false (by simp [hfirst]) ?_
      rintro ⟨hfound, hnone⟩
      rw [← Except.ok.inj hfound, hfirst] at hnone
      cases hnone
    | none =>
      simp only [hfirst, Except.ok.injEq]
      refine (and_iff_left_of_imp ?_).symm
      rintro rfl
      exact hfirst

/-- Definitions that are read have no repeated ids. -/
theorem firstRepetition?_of_parse {text : Bytes} {path : String} {cs : List Challenge}
    (h : parse text path = .ok cs) : firstRepetition? cs = none :=
  (parse_eq_ok_iff.1 h).2

end GoalProgress.Definition
