import GoalProgress.Proofs.Cache.Integrity
import GoalProgress.Proofs.Cache.Reload
import GoalProgress.Proofs.Definition.Repetition

/-!
# Goals that no challenge names any more

Loading definitions removes the goals that are in no challenge any more. Adding a single challenge
does not: if it takes the place of an earlier one and leaves out a goal of it, the document of the
goal stays, and goes on being served, counted and saved. This module says exactly which goals are
left behind in this way, until definitions are loaded or the goal is added once more.

## Main definitions

* `Cache.Names`: some stored challenge names a goal.
* `Cache.Orphan`: a goal is stored, and no stored challenge names it.
* `Cache.Drops`: adding a challenge takes a goal from the last challenge that names it.
* `Cache.Operation.Settles`: an operation after which a goal is no orphan.
* `Cache.LeftBehind`: a sequence of operations drops a goal, and nothing sets this right later on.
-/
namespace GoalProgress

namespace Cache

variable {cache : Cache} {g : String}

/-- Some stored challenge names a goal. -/
def Names (cache : Cache) (g : String) : Prop := ∃ id, g ∈ cache.goalIds id

/-- A goal is stored, and no stored challenge names it. -/
structure Orphan (cache : Cache) (g : String) : Prop where
  stored : (cache.goalDocument? g).isSome
  unnamed : ¬ cache.Names g

theorem orphan_iff : cache.Orphan g ↔ (cache.goalDocument? g).isSome ∧ ¬ cache.Names g :=
  ⟨fun h => ⟨h.stored, h.unnamed⟩, fun h => ⟨h.1, h.2⟩⟩

theorem Linked.isSome_of_names (h : cache.Linked) (hg : cache.Names g) :
    (cache.goalDocument? g).isSome := by
  obtain ⟨_, hmem⟩ := hg
  exact h.isSome_of_mem_goalIds hmem

/-- The goals that are stored are those that are named, and the orphans. -/
theorem Linked.isSome_goalDocument?_iff (h : cache.Linked) :
    (cache.goalDocument? g).isSome ↔ cache.Names g ∨ cache.Orphan g := by
  constructor
  · intro hg
    exact Classical.or_iff_not_imp_left.2 fun hnames => ⟨hg, hnames⟩
  · rintro (hnames | horphan)
    · exact h.isSome_of_names hnames
    · exact horphan.stored

theorem not_orphan_empty : ¬ Cache.empty.Orphan g := by
  intro h
  have hstored := h.stored
  rw [goalDocument?_empty] at hstored
  cases hstored

/-! ## Loading definitions -/

/-- A challenge names the goals of its last definition. -/
theorem goalIds_loaded (cache : Cache) (cs : List Challenge) (id : String) :
    (cache.loaded cs).goalIds id =
      ((lastWith (·.id) id cs).map fun c => c.goals.map (·.id)).getD [] := by
  rw [goalIds, challenge?_loaded, Option.map_map]
  rfl

/-- **Definitions leave no orphans**, if no two challenges have the same id. -/
theorem not_orphan_loaded {cs : List Challenge} (h : (cs.map (·.id)).Nodup) :
    ¬ (cache.loaded cs).Orphan g := by
  intro horphan
  have hstored := horphan.stored
  rw [goalDocument?_loaded, Option.isSome_map, Option.isSome_iff_exists] at hstored
  obtain ⟨goal, hgoal⟩ := hstored
  obtain ⟨hmem, rfl⟩ := lastWith_eq_some hgoal
  obtain ⟨c, hc, hgoal⟩ := List.mem_flatMap.1 hmem
  refine horphan.unnamed ⟨c.id, ?_⟩
  rw [goalIds_loaded, lastWith_of_nodup h hc]
  exact List.mem_map_of_mem hgoal

/-! ## Adding a challenge -/

/-- A challenge can be added, and it takes a goal from the only challenge that names it, in whose
place it is put. -/
structure Drops (cache : Cache) (p : Prepared) (g : String) : Prop where
  check : p.check = .ok ()
  missing : g ∉ p.goals.map (·.1)
  named : g ∈ cache.goalIds p.id
  alone : ∀ id, g ∈ cache.goalIds id → id = p.id

theorem goalIds_insert (cache : Cache) (p : Prepared) (id : String) :
    (cache.insert p).goalIds id =
      if p.id = id then p.goals.map (·.1) else cache.goalIds id := by
  rw [goalIds, challenge?_insert, goalIds]
  by_cases h : p.id = id
  · rw [if_pos h, if_pos h]
    rfl
  · rw [if_neg h, if_neg h]

/-- The goals that are named are those of the new challenge, and those of the ones beside it. -/
theorem names_insert_iff {p : Prepared} :
    (cache.insert p).Names g ↔
      g ∈ p.goals.map (·.1) ∨ ∃ id, p.id ≠ id ∧ g ∈ cache.goalIds id := by
  constructor
  · rintro ⟨id, hg⟩
    rw [goalIds_insert] at hg
    by_cases hid : p.id = id
    · rw [if_pos hid] at hg
      exact .inl hg
    · rw [if_neg hid] at hg
      exact .inr ⟨id, hid, hg⟩
  · rintro (hg | ⟨id, hid, hg⟩)
    · refine ⟨p.id, ?_⟩
      rwa [goalIds_insert, if_pos rfl]
    · refine ⟨id, ?_⟩
      rwa [goalIds_insert, if_neg hid]

/-- A document that does not come with a challenge is the one that was there before. -/
theorem goalDocument?_insert_of_not_mem {p : Prepared} (h : g ∉ p.goals.map (·.1)) :
    (cache.insert p).goalDocument? g = cache.goalDocument? g := by
  rw [goalDocument?_insert, lastWith_eq_none_iff.2 h]
  rfl

/-- A goal that does not come with a challenge is an orphan afterwards if it is stored and no other
challenge names it. -/
theorem orphan_insert_iff_of_not_mem {p : Prepared} (h : g ∉ p.goals.map (·.1)) :
    (cache.insert p).Orphan g ↔
      (cache.goalDocument? g).isSome ∧ ∀ id, g ∈ cache.goalIds id → id = p.id := by
  have hunnamed : ¬ (cache.insert p).Names g ↔ ∀ id, g ∈ cache.goalIds id → id = p.id := by
    rw [names_insert_iff, or_iff_right h, not_exists]
    refine forall_congr' fun id => ?_
    rw [and_comm, not_and, Classical.not_not, eq_comm]
  rw [orphan_iff, goalDocument?_insert_of_not_mem h, hunnamed]

/-- **Adding a challenge keeps the orphans that it does not bring along, and adds the goals that it
drops.** -/
theorem orphan_insert_iff (h : cache.Linked) {p : Prepared} (hp : p.check = .ok ()) :
    (cache.insert p).Orphan g ↔
      g ∉ p.goals.map (·.1) ∧ (cache.Orphan g ∨ cache.Drops p g) := by
  constructor
  · intro horphan
    have hmissing : g ∉ p.goals.map (·.1) := fun hmem =>
      horphan.unnamed (names_insert_iff.2 (.inl hmem))
    obtain ⟨hstored, halone⟩ := (orphan_insert_iff_of_not_mem hmissing).1 horphan
    refine ⟨hmissing, ?_⟩
    by_cases hnamed : g ∈ cache.goalIds p.id
    · exact .inr ⟨hp, hmissing, hnamed, halone⟩
    · refine .inl ⟨hstored, ?_⟩
      rintro ⟨id, hid⟩
      obtain rfl := halone id hid
      exact hnamed hid
  · rintro ⟨hmissing, hbefore⟩
    rw [orphan_insert_iff_of_not_mem hmissing]
    rcases hbefore with horphan | hdrops
    · exact ⟨horphan.stored, fun id hid => absurd ⟨id, hid⟩ horphan.unnamed⟩
    · exact ⟨h.isSome_of_mem_goalIds hdrops.named, hdrops.alone⟩

/-! ## Operations -/

namespace Operation

/-- Definitions that have been read are loaded, or a printed challenge is added, whatever it is. -/
inductive Regular : Operation → Prop
  | warmUp {file : Bytes} {path : String} {cs : List Challenge}
      (h : Definition.parse file path = .ok cs) : Regular (.warmUp cs)
  | insertRaw (p : Prepared) : Regular (.insertRaw p)

/-- An operation adds a challenge that drops a goal. -/
def Drops (op : Operation) (cache : Cache) (g : String) : Prop :=
  match op with
  | .insertRaw p => cache.Drops p g
  | .warmUp _ | .restore _ => False

/-- An operation loads definitions, or adds a challenge that names a goal. -/
def Settles (op : Operation) (g : String) : Prop :=
  match op with
  | .insertRaw p => p.check = .ok () ∧ g ∈ p.goals.map (·.1)
  | .warmUp _ => True
  | .restore _ => False

variable {op : Operation}

theorem Regular.linked (hop : op.Regular) {new : Cache} (h : cache.Linked)
    (hnew : op.result cache = .ok new) : new.Linked := by
  cases hop with
  | warmUp _ => exact Linked.warmUp hnew
  | insertRaw p => exact h.insertRaw hnew

/-- **The orphans after one operation** are what it drops, and those before that it does not
settle. -/
theorem orphan_run_iff (hop : op.Regular) (h : cache.Linked) :
    (op.run cache).2.Orphan g ↔ op.Drops cache g ∨ ¬ op.Settles g ∧ cache.Orphan g := by
  cases hop with
  | @warmUp _ _ cs hparse =>
    have haccepted := Definition.firstRepetition?_of_parse hparse
    have hnodup := ((Definition.firstRepetition?_eq_none_iff cs).1 haccepted).1
    rw [run_warmUp]
    refine iff_of_false (not_orphan_loaded hnodup) ?_
    rintro (hdrops | ⟨hsettles, _⟩)
    · exact hdrops
    · exact hsettles trivial
  | insertRaw p =>
    simp only [Drops, Settles]
    cases hp : p.check with
    | error e =>
      -- a challenge that is refused neither drops nor settles anything
      have hdrops : ¬ cache.Drops p g := by
        intro hdrops
        rw [hdrops.check] at hp
        cases hp
      rw [run_insertRaw_of_error hp]
      simp [hdrops]
    | ok _ =>
      rw [run_insertRaw hp, orphan_insert_iff h hp]
      constructor
      · rintro ⟨hmissing, horphan | hdrops⟩
        · exact .inr ⟨fun hsettles => hmissing hsettles.2, horphan⟩
        · exact .inl hdrops
      · rintro (hdrops | ⟨hsettles, horphan⟩)
        · exact ⟨hdrops.missing, .inr hdrops⟩
        · exact ⟨fun hmem => hsettles ⟨rfl, hmem⟩, .inl horphan⟩

end Operation

/-! ## Sequences of operations -/

/-- One of the operations drops a goal, and nothing sets this right later on. -/
def LeftBehind (ops : List Operation) (g : String) : Prop :=
  ∃ before op later, ops = before ++ op :: later ∧ op.Drops (after before) g ∧
    ∀ next ∈ later, ¬ next.Settles g

theorem not_leftBehind_nil : ¬ LeftBehind [] g := by
  rintro ⟨before, op, later, hops, _⟩
  simp at hops

/-- The last operation either drops a goal itself, or it does not settle what was dropped before. -/
theorem leftBehind_concat {ops : List Operation} {op : Operation} :
    LeftBehind (ops ++ [op]) g ↔
      op.Drops (after ops) g ∨ ¬ op.Settles g ∧ LeftBehind ops g := by
  constructor
  · rintro ⟨before, dropping, later, hops, hdrops, hlater⟩
    rcases List.eq_nil_or_concat later with rfl | ⟨later, last, rfl⟩
    · obtain ⟨rfl, hlast⟩ := List.append_inj' hops rfl
      cases hlast
      exact .inl hdrops
    · rw [List.concat_eq_append, ← List.cons_append, ← List.append_assoc] at hops
      obtain ⟨rfl, hlast⟩ := List.append_inj' hops rfl
      cases hlast
      rw [List.concat_eq_append, List.forall_mem_append] at hlater
      exact .inr ⟨hlater.2 op List.mem_cons_self, before, dropping, later, rfl, hdrops, hlater.1⟩
  · rintro (hdrops | ⟨hsettles, before, dropping, later, rfl, hdrops, hlater⟩)
    · exact ⟨ops, op, [], rfl, hdrops, fun _ hnext => nomatch hnext⟩
    · refine ⟨before, dropping, later ++ [op], ?_, hdrops, ?_⟩
      · rw [List.append_assoc, List.cons_append]
      · intro next hnext
        rcases List.mem_append.1 hnext with hnext | hnext
        · exact hlater next hnext
        · rwa [List.mem_singleton.1 hnext]

theorem linked_after {ops : List Operation} (h : ∀ op ∈ ops, op.Regular) : (after ops).Linked :=
  after_induction_of_mem ops .empty fun op hop _ _ hcache hnew => (h op hop).linked hcache hnew

/-- **The orphans are the goals that are left behind.** -/
theorem orphan_after_iff {ops : List Operation} (h : ∀ op ∈ ops, op.Regular) :
    (after ops).Orphan g ↔ LeftBehind ops g := by
  -- from the end: what the last operation does depends on the cache that it meets
  induction hreverse : ops.reverse generalizing ops with
  | nil =>
    rw [List.reverse_eq_nil_iff.1 hreverse]
    exact iff_of_false not_orphan_empty not_leftBehind_nil
  | cons op earlier ih =>
    obtain rfl : ops = earlier.reverse ++ [op] := by
      rw [← List.reverse_cons, ← hreverse, List.reverse_reverse]
    obtain ⟨hearlier, hop⟩ := List.forall_mem_append.1 h
    have hregular : op.Regular := hop op List.mem_cons_self
    rw [after_concat, Operation.orphan_run_iff hregular (linked_after hearlier),
      ih hearlier (List.reverse_reverse earlier), leftBehind_concat]

/-! ## Snapshots and statistics -/

theorem nodup_toSnapshot_goals (cache : Cache) : (cache.toSnapshot.goals.map (·.1)).Nodup :=
  nodup_keys_toList cache.goals

theorem stats_goals (cache : Cache) : cache.stats.goals = cache.toSnapshot.goals.length :=
  Std.ExtTreeMap.length_toList.symm

/-- A snapshot has the goals that are stored. -/
theorem mem_toSnapshot_goals_iff :
    g ∈ cache.toSnapshot.goals.map (·.1) ↔ (cache.goalDocument? g).isSome := by
  rw [toSnapshot, Std.ExtTreeMap.map_fst_toList_eq_keys, Std.ExtTreeMap.mem_keys, goalDocument?]
  exact Std.ExtTreeMap.isSome_getElem?_iff_mem.symm

/-- A goal is served exactly if it is stored. -/
theorem exists_goal_eq_ok_iff {sizing : Sizing} {record : Option ProgressRecord} :
    (∃ body, (cache.builder sizing).goal g record = .ok body) ↔
      (cache.goalDocument? g).isSome := by
  rw [goal_builder]
  cases cache.goalDocument? g <;> simp

/-- **Goals that no challenge names any more.** Definitions that have been read are loaded and
printed challenges are added to a cache that is empty at first, in whatever order, some of them in
vain. Then a goal that no stored challenge names is stored exactly if it was left behind: adding a
challenge left it out of the only challenge that had named it, and neither were definitions loaded
later on nor was a challenge added that names it again. The goals that are served and the goals that
are written to a snapshot are those that are named and those that are left behind, and the
statistics count them. -/
theorem kept_iff_names_or_leftBehind {ops : List Operation} (h : ∀ op ∈ ops, op.Regular)
    (sizing : Sizing) :
    (after ops).stats.goals = ((after ops).toSnapshot.goals.map (·.1)).length ∧
      ((after ops).toSnapshot.goals.map (·.1)).Nodup ∧
      ∀ g,
        ((after ops).Orphan g ↔ LeftBehind ops g) ∧
        (g ∈ (after ops).toSnapshot.goals.map (·.1) ↔ (after ops).Names g ∨ LeftBehind ops g) ∧
        ∀ record, (∃ body, ((after ops).builder sizing).goal g record = .ok body) ↔
          (after ops).Names g ∨ LeftBehind ops g := by
  refine ⟨?_, nodup_toSnapshot_goals _, fun g => ?_⟩
  · rw [stats_goals, List.length_map]
  · have hkept : ((after ops).goalDocument? g).isSome ↔
        (after ops).Names g ∨ LeftBehind ops g := by
      rw [(linked_after h).isSome_goalDocument?_iff, orphan_after_iff h]
    exact ⟨orphan_after_iff h, mem_toSnapshot_goals_iff.trans hkept,
      fun _ => exists_goal_eq_ok_iff.trans hkept⟩

end Cache

/-- A challenge with one goal. -/
def Prepared.withGoal : Prepared where
  id := "c"
  document := Bytes.ofString "\x7b\"goals\":[\x7b\"goalId\":\"g\"\x7d]\x7d"
  goals := [("g", Bytes.ofString "\x7b\"goalId\":\"g\"\x7d")]

/-- The same challenge without its goal. -/
def Prepared.withoutGoal : Prepared where
  id := "c"
  document := Bytes.ofString "\x7b\"goals\":[]\x7d"
  goals := []

namespace Cache

/-- A challenge is added, and then once more without its goal. -/
def goalTakenOut : List Operation := [.insertRaw .withGoal, .insertRaw .withoutGoal]

theorem goalIds_insert_withGoal (id : String) :
    (empty.insert .withGoal).goalIds id = if "c" = id then ["g"] else [] := by
  rw [goalIds_insert]
  rfl

theorem drops_withoutGoal : (empty.insert .withGoal).Drops .withoutGoal "g" where
  check := rfl
  missing := List.not_mem_nil
  named := by
    rw [goalIds_insert_withGoal]
    exact List.mem_cons_self
  alone id hid := by
    rw [goalIds_insert_withGoal] at hid
    split at hid
    · rename_i hc
      exact hc.symm
    · cases hid

theorem kept_iff_names_or_leftBehind_takenOut :
    (∀ op ∈ goalTakenOut ++ [.insertRaw .broken], op.Regular) ∧
      ¬ (after (goalTakenOut ++ [.insertRaw .broken])).Names "g" ∧
      ∀ record, ∃ body,
        ((after (goalTakenOut ++ [.insertRaw .broken])).builder {}).goal "g" record =
          .ok body := by
  have hregular : ∀ op ∈ goalTakenOut ++ [.insertRaw .broken], op.Regular := by
    simp [goalTakenOut, Operation.Regular.insertRaw]
  have hleft : LeftBehind (goalTakenOut ++ [.insertRaw .broken]) "g" := by
    refine ⟨[.insertRaw .withGoal], .insertRaw .withoutGoal, [.insertRaw .broken], rfl, ?_, ?_⟩
    · rw [after_insertRaw rfl]
      exact drops_withoutGoal
    · simp [Operation.Settles, Prepared.broken]
  obtain ⟨_, _, hgoals⟩ := kept_iff_names_or_leftBehind hregular {}
  obtain ⟨horphan, _, hserved⟩ := hgoals "g"
  exact ⟨hregular, (horphan.2 hleft).unnamed, fun record => (hserved record).2 (.inr hleft)⟩

/-- Once the goal is taken out, no stored challenge names it, but it is served, counted and saved as
before. -/
theorem goal_of_goalTakenOut :
    (∀ op ∈ goalTakenOut, op.Regular) ∧
      ¬ (after goalTakenOut).Names "g" ∧
      ((after goalTakenOut).builder {}).goal "g" none =
        .ok (Bytes.ofString ("\x7b\"goalId\":\"g\",\"progress\":0,\"status\":\"not_started\"," ++
          "\"completedAt\":\"\",\"claimedAt\":\"\"\x7d")) ∧
      (after goalTakenOut).stats.goals = 1 ∧
      (after goalTakenOut).toSnapshot.goals =
        [("g", Bytes.ofString "\x7b\"goalId\":\"g\"\x7d")] := by
  have hafter : after goalTakenOut = (empty.insert .withGoal).insert .withoutGoal := by
    rw [goalTakenOut, ← List.singleton_append, after_concat, after_insertRaw rfl,
      Operation.run_insertRaw rfl]
  have horphan := (orphan_insert_iff (Linked.empty.insert .withGoal) rfl).2
    ⟨List.not_mem_nil, .inr drops_withoutGoal⟩
  rw [hafter]
  exact ⟨by simp [goalTakenOut, Operation.Regular.insertRaw], horphan.unnamed, rfl, rfl, rfl⟩

end Cache

end GoalProgress
