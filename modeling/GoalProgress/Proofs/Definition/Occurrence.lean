import GoalProgress.Proofs.Definition.Repetition

/-!
# Which repetition is reported

The ids of definitions stand in one order: that of a challenge, those of its goals, and then those
of the next challenge. Challenges and goals are told apart, but goals of different challenges are
not. What is reported is the first id in this order that has occurred before, in the words for its
sort.

## Main definitions

* `Definition.Occurrence`: an id at the place where it stands.
* `Definition.occurrences`: the ids of definitions in their order.
* `Definition.Repeated`: the first one that has occurred before.
-/
namespace GoalProgress.Definition

/-- What an id stands for. -/
inductive Identity where
  | challenge (id : String)
  | goal (id : String)
deriving DecidableEq

/-- An id, and the challenge in which it stands. -/
structure Occurrence where
  identity : Identity
  challengeId : String

/-- What is reported of an id that has occurred before. -/
def Occurrence.fault (o : Occurrence) : ConfigFault :=
  match o.identity with
  | .challenge id => .duplicateChallenge id
  | .goal id => .duplicateGoal id o.challengeId

/-- The ids of the goals of one challenge. -/
def goalOccurrences (challengeId : String) (gs : List Goal) : List Occurrence :=
  gs.map fun g => ⟨.goal g.id, challengeId⟩

/-- The ids of definitions in their order, a challenge before its goals. -/
def occurrences (cs : List Challenge) : List Occurrence :=
  cs.flatMap fun c => ⟨.challenge c.id, c.id⟩ :: goalOccurrences c.id c.goals

/-- An id that has occurred before, while none before it has. -/
def Repeated (os : List Occurrence) (o : Occurrence) : Prop :=
  ∃ before after, os = before ++ o :: after ∧ (before.map (·.identity)).Nodup ∧
    o.identity ∈ before.map (·.identity)

/-! ## In one pass -/

/-- The first id that is among those seen before, or has occurred since. -/
def firstRepeated? (seen : List Identity) : List Occurrence → Option Occurrence
  | [] => none
  | o :: os => if o.identity ∈ seen then some o else firstRepeated? (o.identity :: seen) os

/-- **One pass finds the first repetition.** -/
theorem firstRepeated?_eq_some_iff {seen : List Identity} {os : List Occurrence} {o : Occurrence} :
    firstRepeated? seen os = some o ↔
      ∃ before after, os = before ++ o :: after ∧ (before.map (·.identity)).Nodup ∧
        (∀ x ∈ before, x.identity ∉ seen) ∧
        (o.identity ∈ seen ∨ o.identity ∈ before.map (·.identity)) := by
  induction os generalizing seen with
  | nil => exact iff_of_false nofun (by simp)
  | cons x os ih =>
    rw [firstRepeated?]
    by_cases hx : x.identity ∈ seen
    · rw [if_pos hx, Option.some.injEq]
      constructor
      · rintro rfl
        exact ⟨[], os, rfl, List.nodup_nil, nofun, .inl hx⟩
      · rintro ⟨before, after, heq, _, hseen, _⟩
        cases before with
        | nil => exact (List.cons.inj heq).1
        | cons y before =>
          obtain ⟨rfl, _⟩ := List.cons.inj heq
          exact absurd hx (hseen x List.mem_cons_self)
    · rw [if_neg hx, ih]
      constructor
      · rintro ⟨before, after, rfl, hnodup, hseen, ho⟩
        refine ⟨x :: before, after, rfl, ?_, ?_, ?_⟩
        · rw [List.map_cons, List.nodup_cons]
          refine ⟨fun hmem => ?_, hnodup⟩
          obtain ⟨y, hy, hyx⟩ := List.mem_map.1 hmem
          exact hseen y hy (hyx ▸ List.mem_cons_self)
        · rw [List.forall_mem_cons]
          exact ⟨hx, fun y hy hmem => hseen y hy (List.mem_cons_of_mem _ hmem)⟩
        · simp only [List.mem_cons, List.map_cons] at ho ⊢
          grind
      · rintro ⟨before, after, heq, hnodup, hseen, ho⟩
        cases before with
        | nil =>
          obtain ⟨rfl, _⟩ := List.cons.inj heq
          simp [hx] at ho
        | cons y before =>
          obtain ⟨rfl, rfl⟩ := List.cons.inj heq
          rw [List.map_cons, List.nodup_cons] at hnodup
          rw [List.forall_mem_cons] at hseen
          refine ⟨before, after, rfl, hnodup.2, fun z hz hmem => ?_, ?_⟩
          · rcases List.mem_cons.1 hmem with hzx | hmem
            · exact hnodup.1 (hzx ▸ List.mem_map_of_mem hz)
            · exact hseen.2 z hz hmem
          · simp only [List.mem_cons, List.map_cons] at ho ⊢
            grind

/-! ## Challenge by challenge -/

/-- The identities seen are those of the challenges and of the goals that have been seen. -/
structure Tracks (seenChallenges seenGoals : List String) (seen : List Identity) : Prop where
  challenge : ∀ id, .challenge id ∈ seen ↔ id ∈ seenChallenges
  goal : ∀ id, .goal id ∈ seen ↔ id ∈ seenGoals

variable {seenChallenges seenGoals : List String} {seen : List Identity}

theorem tracks_nil : Tracks [] [] [] := ⟨by simp, by simp⟩

theorem Tracks.cons_challenge (h : Tracks seenChallenges seenGoals seen) (id : String) :
    Tracks (id :: seenChallenges) seenGoals (.challenge id :: seen) := by
  refine ⟨fun x => ?_, fun x => ?_⟩
  · rw [List.mem_cons, List.mem_cons, h.challenge, Identity.challenge.injEq]
  · rw [List.mem_cons, h.goal, or_iff_right nofun]

theorem Tracks.cons_goal (h : Tracks seenChallenges seenGoals seen) (id : String) :
    Tracks seenChallenges (id :: seenGoals) (.goal id :: seen) := by
  refine ⟨fun x => ?_, fun x => ?_⟩
  · rw [List.mem_cons, h.challenge, or_iff_right nofun]
  · rw [List.mem_cons, List.mem_cons, h.goal, Identity.goal.injEq]

/-- The goals of one challenge: their first repetition is reported, or they are all seen. -/
theorem firstRepeated?_goalOccurrences (h : Tracks seenChallenges seenGoals seen)
    (challengeId : String) (gs : List Goal) (os : List Occurrence) :
    match repeatedGoal? challengeId seenGoals gs with
    | .error fault =>
      (firstRepeated? seen (goalOccurrences challengeId gs ++ os)).map (·.fault) = some fault
    | .ok seenGoals' =>
      ∃ seen', Tracks seenChallenges seenGoals' seen' ∧
        firstRepeated? seen (goalOccurrences challengeId gs ++ os) = firstRepeated? seen' os := by
  induction gs generalizing seenGoals seen with
  | nil => exact ⟨seen, h, rfl⟩
  | cons g gs ih =>
    have hcons : goalOccurrences challengeId (g :: gs) ++ os =
        ⟨.goal g.id, challengeId⟩ :: (goalOccurrences challengeId gs ++ os) := rfl
    rw [repeatedGoal?, hcons, firstRepeated?]
    by_cases hg : g.id ∈ seenGoals
    · rw [if_pos hg, if_pos ((h.goal g.id).2 hg)]
      rfl
    · rw [if_neg hg, if_neg (mt (h.goal g.id).1 hg)]
      exact ih (h.cons_goal g.id)

/-- **The two loops over challenges and goals come to one pass over the ids.** -/
theorem firstRepetitionFrom_eq (h : Tracks seenChallenges seenGoals seen) (cs : List Challenge) :
    firstRepetitionFrom seenChallenges seenGoals cs =
      (firstRepeated? seen (occurrences cs)).map (·.fault) := by
  induction cs generalizing seenChallenges seenGoals seen with
  | nil => rfl
  | cons c cs ih =>
    have hcons : occurrences (c :: cs) =
        ⟨.challenge c.id, c.id⟩ :: (goalOccurrences c.id c.goals ++ occurrences cs) := rfl
    rw [firstRepetitionFrom, hcons, firstRepeated?]
    by_cases hc : c.id ∈ seenChallenges
    · rw [if_pos hc, if_pos ((h.challenge c.id).2 hc)]
      rfl
    · rw [if_neg hc, if_neg (mt (h.challenge c.id).1 hc)]
      have hgoals := firstRepeated?_goalOccurrences (h.cons_challenge c.id) c.id c.goals
        (occurrences cs)
      cases hresult : repeatedGoal? c.id seenGoals c.goals with
      | error fault =>
        rw [hresult] at hgoals
        exact hgoals.symm
      | ok seenGoals' =>
        rw [hresult] at hgoals
        obtain ⟨seen', htracks, hrest⟩ := hgoals
        rw [hrest]
        exact ih htracks

/-- **The first repetition is reported.** -/
theorem firstRepetition?_eq_some_iff {cs : List Challenge} {fault : ConfigFault} :
    firstRepetition? cs = some fault ↔
      ∃ o, Repeated (occurrences cs) o ∧ fault = o.fault := by
  rw [firstRepetition?, firstRepetitionFrom_eq tracks_nil, Option.map_eq_some_iff]
  constructor
  · rintro ⟨o, ho, rfl⟩
    obtain ⟨before, after, heq, hnodup, _, hmem⟩ := firstRepeated?_eq_some_iff.1 ho
    exact ⟨o, ⟨before, after, heq, hnodup, hmem.resolve_left List.not_mem_nil⟩, rfl⟩
  · rintro ⟨o, ⟨before, after, heq, hnodup, hmem⟩, rfl⟩
    exact ⟨o, firstRepeated?_eq_some_iff.2
      ⟨before, after, heq, hnodup, fun _ _ => List.not_mem_nil, .inr hmem⟩, rfl⟩

/-- A text that denotes definitions is refused for the first repetition among them, if there is
one. -/
theorem parse_eq_error_iff {text : Bytes} {path : String} {cs : List Challenge} {e : Error}
    (h : decode text = .ok cs) :
    parse text path = .error e ↔
      ∃ o, Repeated (occurrences cs) o ∧ e = .config o.fault (some path) := by
  rw [parse, h]
  constructor
  · intro he
    cases hfirst : firstRepetition? cs with
    | none =>
      simp only [hfirst] at he
      cases he
    | some fault =>
      simp only [hfirst, Except.error.injEq] at he
      obtain ⟨o, ho, rfl⟩ := firstRepetition?_eq_some_iff.1 hfirst
      exact ⟨o, ho, he.symm⟩
  · rintro ⟨o, ho, rfl⟩
    simp only [firstRepetition?_eq_some_iff.2 ⟨o, ho, rfl⟩]

end GoalProgress.Definition
