import GoalProgress.Proofs.Cache
import GoalProgress.Proofs.Cache.Operation
import GoalProgress.Proofs.Response.Definitions
import GoalProgress.Proofs.Snapshot.Restore
import GoalProgress.Proofs.Splice.Buffer

/-!
# Only checked documents are cached

Whatever operations a cache has been through, all its documents pass the check. So the goals that
splicing meets in its documents have a closing brace, and every goal that is shown has its suffix.

## Main definitions

* `Cache.Checked`: the invariant of the caches in use.
* `Cache.Hands`: what the responses from a cache hand on to the splicing of single goals.
-/
namespace GoalProgress

/-- A challenge is fit for caching if its own document is and those of its goals are. -/
theorem Prepared.check_eq_ok_iff (p : Prepared) :
    p.check = .ok () ↔
      Document.check p.id p.document = .ok () ∧ ∀ g ∈ p.goals, Document.check g.1 g.2 = .ok () := by
  have hgoals : (p.goals.forM fun g => Document.check g.1 g.2) = .ok () ↔
      ∀ g ∈ p.goals, Document.check g.1 g.2 = .ok () := forM_eq_ok_iff
  rw [← hgoals, check]
  cases Document.check p.id p.document with
  | error e => simp [bind, Except.bind]
  | ok _ => simp [bind, Except.bind]

/-- A document that passes the check has a closing brace. -/
theorem Document.closeBrace_mem_of_check {id : String} {doc : Bytes} (h : check id doc = .ok ()) :
    Byte.closeBrace ∈ doc := by
  rw [check_eq_ok_iff, fault?] at h
  refine Classical.byContradiction fun hmem => ?_
  rw [Bytes.lastByte?_eq_none_iff.2 hmem] at h
  cases h

namespace Cache

/-- All documents in a cache pass the check under the ids that they are cached by. -/
structure Checked (cache : Cache) : Prop where
  challenge : ∀ {id doc}, cache.challengeDocument? id = some doc → Document.check id doc = .ok ()
  goal : ∀ {id doc}, cache.goalDocument? id = some doc → Document.check id doc = .ok ()

namespace Checked

variable {cache new : Cache}

/-! ## Writes -/

theorem empty : Cache.empty.Checked := by
  constructor
  · intro id doc h
    rw [challengeDocument?_empty] at h
    cases h
  · intro id doc h
    rw [goalDocument?_empty] at h
    cases h

/-- A document that is found after a write is the one that was written, or was there before. -/
theorem check_of_write {id other : String} {doc found : Bytes} {old : Option Bytes}
    (hdoc : Document.check id doc = .ok ())
    (hold : old = some found → Document.check other found = .ok ())
    (hfound : (if id = other then some doc else old) = some found) :
    Document.check other found = .ok () := by
  by_cases hid : id = other
  · rw [if_pos hid, Option.some.injEq] at hfound
    rwa [← hid, ← hfound]
  · rw [if_neg hid] at hfound
    exact hold hfound

theorem insertGoal (h : cache.Checked) {id : String} {doc : Bytes}
    (hdoc : Document.check id doc = .ok ()) : (cache.insertGoal id doc).Checked := by
  refine ⟨h.challenge, ?_⟩
  intro other found hfound
  rw [goalDocument?_insertGoal] at hfound
  exact check_of_write hdoc h.goal hfound

theorem insertChallenge (h : cache.Checked) {id : String} {entry : ChallengeEntry}
    (hdoc : Document.check id entry.document = .ok ()) :
    (cache.insertChallenge id entry).Checked := by
  refine ⟨?_, h.goal⟩
  intro other found hfound
  rw [challengeDocument?_insertChallenge] at hfound
  exact check_of_write hdoc h.challenge hfound

theorem insert (h : cache.Checked) {p : Prepared} (hp : p.check = .ok ()) :
    (cache.insert p).Checked := by
  obtain ⟨hdoc, hgoals⟩ := p.check_eq_ok_iff.1 hp
  refine insertChallenge ?_ hdoc
  exact List.foldlRecOn p.goals _ h fun _ h g hg => h.insertGoal (hgoals g hg)

theorem retain (h : cache.Checked) (challengeIds goalIds : List String) :
    (cache.retain challengeIds goalIds).Checked := by
  constructor
  · intro id doc hdoc
    rw [challengeDocument?_retain] at hdoc
    split at hdoc
    · exact h.challenge hdoc
    · cases hdoc
  · intro id doc hdoc
    rw [goalDocument?_retain] at hdoc
    split at hdoc
    · exact h.goal hdoc
    · cases hdoc

/-! ## Operations -/

theorem warmUp (h : cache.Checked) {cs : List Challenge} (hnew : cache.warmUp cs = .ok new) :
    new.Checked := by
  obtain rfl := Except.ok.inj ((cache.warmUp_eq cs).symm.trans hnew)
  refine retain (List.foldlRecOn _ _ h fun _ h p hp => ?_) _ _
  obtain ⟨c, _, rfl⟩ := List.mem_map.1 hp
  exact h.insert (Prepared.check_ofChallenge c)

theorem insertRaw (h : cache.Checked) {p : Prepared} (hnew : cache.insertRaw p = .ok new) :
    new.Checked := by
  obtain ⟨hp, rfl⟩ := (cache.insertRaw_eq_ok_iff p new).1 hnew
  exact h.insert hp

theorem contents {s : Snapshot} (h : s.Usable) : s.contents.Checked := by
  have hgoals := List.foldlRecOn s.goals (fun cache g => cache.insertGoal g.1 g.2) empty
    fun _ hcache g hg => hcache.insertGoal (h.goals g hg)
  exact List.foldlRecOn s.challenges _ hgoals
    fun _ hcache c hc => hcache.insertChallenge (h.challenges c hc)

/-- **Every operation that succeeds leaves checked documents only.** -/
theorem result {op : Operation} (h : cache.Checked) (hnew : op.result cache = .ok new) :
    new.Checked := by
  cases op with
  | warmUp cs => exact h.warmUp hnew
  | insertRaw p => exact h.insertRaw hnew
  | restore file =>
    obtain ⟨s, _, hs, rfl⟩ := (ofSnapshotBytes_eq_ok_iff file new).1 hnew
    exact contents hs

/-- **After any operations, all documents are checked.** -/
theorem after (ops : List Operation) : (Cache.after ops).Checked := after_induction empty result ops

end Checked

/-! ## Goals from checked documents -/

/-- A goal response is made from the document of the goal. -/
theorem goal_builder (cache : Cache) (sizing : Sizing) (id : String)
    (record : Option ProgressRecord) :
    (cache.builder sizing).goal id record =
      match cache.goalDocument? id with
      | some doc => .ok (Splice.goal doc record)
      | none => .error (.goalNotFound id) := rfl

/-- What the responses from a cache hand on to the splicing of single goals: the documents of goals,
and the goals that are cut out of the documents of challenges. -/
inductive Hands (cache : Cache) : Bytes → Prop
  | goal {id : String} {doc : Bytes} (h : cache.goalDocument? id = some doc) : Hands cache doc
  | challenge {id : String} {doc goal : Bytes} {c : Splice.Cut}
      (h : cache.challengeDocument? id = some doc) (hcut : Splice.cut doc = .ok (some c))
      (hgoal : goal ∈ c.goals) : Hands cache goal

/-- When a cached challenge is written, nothing is written as a goal but what the cache hands on:
writing other bytes differently makes no difference. -/
theorem writeChallengeBy_of_hands {cache : Cache} {id : String} {doc : Bytes}
    (h : cache.challengeDocument? id = some doc)
    {step : Bytes → Option ProgressRecord → BufferM Unit}
    (hstep : ∀ goal, cache.Hands goal → step goal = Splice.writeGoal goal) (lookup : Lookup) :
    Splice.writeChallengeBy step doc lookup = Splice.writeChallenge doc lookup :=
  Splice.writeChallengeBy_eq (fun _ hcut goal hgoal => hstep goal (.challenge h hcut hgoal)) lookup

namespace Checked

variable {cache : Cache}

/-- A goal without a closing brace is never spliced. -/
theorem lastByte?_of_hands (h : cache.Checked) {goal : Bytes} (hgoal : cache.Hands goal) :
    goal.lastByte? Byte.closeBrace ≠ none := by
  rw [ne_eq, Bytes.lastByte?_eq_none_iff, Classical.not_not]
  cases hgoal with
  | goal hdoc => exact Document.closeBrace_mem_of_check (h.goal hdoc)
  | challenge _ _ hmem => exact Splice.Cut.closeBrace_mem_goals _ _ hmem

/-- A goal response is a checked document with a suffix in it. -/
theorem exists_goal_eq (h : cache.Checked) {sizing : Sizing} {id : String}
    {record : Option ProgressRecord} {body : Bytes}
    (hbody : (cache.builder sizing).goal id record = .ok body) :
    ∃ before rest, cache.goalDocument? id = some (before ++ Byte.closeBrace :: rest) ∧
      Byte.closeBrace ∉ rest ∧ Splice.suffixAfter before record ≠ [] ∧
      body = before ++ Splice.suffixAfter before record ++ Byte.closeBrace :: rest := by
  rw [goal_builder] at hbody
  cases hdoc : cache.goalDocument? id with
  | none =>
    rw [hdoc] at hbody
    cases hbody
  | some doc =>
    rw [hdoc] at hbody
    obtain ⟨before, rest, rfl, hrest⟩ :=
      Bytes.exists_last (Document.closeBrace_mem_of_check (h.goal hdoc))
    refine ⟨before, rest, rfl, hrest, Splice.suffixAfter_ne_nil before record, ?_⟩
    rw [← Splice.goal_of_last hrest]
    exact (Except.ok.inj hbody).symm

end Checked

/-- **Only checked documents are cached, and failures change nothing.** After any operations, failed
ones among them, all documents pass the check, and an operation that fails next leaves the cache as
it is. So no response meets a goal without a closing brace: all that is written as goals when a
cached challenge is rendered has one. And every goal response is a cached document with a suffix
before its last closing brace. -/
theorem checked_and_unchanged_on_error (ops : List Operation) (sizing : Sizing) :
    (after ops).Checked ∧
      (∀ (op : Operation) e, (op.run (after ops)).1 = .error e →
        (op.run (after ops)).2 = after ops) ∧
      (∀ goal, (after ops).Hands goal → goal.lastByte? Byte.closeBrace ≠ none) ∧
      (∀ id doc, (after ops).challengeDocument? id = some doc →
        ∀ step : Bytes → Option ProgressRecord → BufferM Unit,
          (∀ goal, (after ops).Hands goal → step goal = Splice.writeGoal goal) →
            ∀ lookup, Splice.writeChallengeBy step doc lookup =
              Splice.writeChallenge doc lookup) ∧
      ∀ id record body, ((after ops).builder sizing).goal id record = .ok body →
        ∃ before rest, (after ops).goalDocument? id = some (before ++ Byte.closeBrace :: rest) ∧
          Byte.closeBrace ∉ rest ∧ Splice.suffixAfter before record ≠ [] ∧
          body = before ++ Splice.suffixAfter before record ++ Byte.closeBrace :: rest := by
  have h := Checked.after ops
  refine ⟨h, ?_, fun goal hgoal => h.lastByte?_of_hands hgoal,
    fun id doc hdoc step => writeChallengeBy_of_hands hdoc, ?_⟩
  · intro op e hrun
    rw [Operation.run_eq] at hrun ⊢
    cases hresult : op.result (after ops) with
    | error e => rfl
    | ok new =>
      rw [hresult] at hrun
      cases hrun
  · intro id record body hbody
    exact h.exists_goal_eq hbody

end Cache

/-- A challenge with two goals, all of them without any members. -/
def Prepared.bare : Prepared where
  id := "c"
  document := Bytes.ofString "\x7b\x7d"
  goals := [("g", Bytes.ofString "\x7b\x7d"), ("h", Bytes.ofString "\x7b\x7d")]

theorem Cache.after_insertRaw_bare : after [.insertRaw .bare] = Cache.empty.insert .bare :=
  after_insertRaw rfl

/-- A challenge that is not fit for caching. -/
def Prepared.broken : Prepared := ⟨"broken", Bytes.ofString "\x7b", []⟩

namespace Cache

theorem checked_and_unchanged_on_error_broken :
    (Operation.run (.insertRaw .broken) (after [.insertRaw .bare])).1 =
        .error (.invalidDocument "broken" .missingBrace) ∧
      (Operation.run (.insertRaw .broken) (after [.insertRaw .bare])).2 =
        after [.insertRaw .bare] ∧
      ∃ body before rest, ((after [.insertRaw .bare]).builder {}).goal "g" none = .ok body ∧
        (after [.insertRaw .bare]).goalDocument? "g" =
          some (before ++ Byte.closeBrace :: rest) ∧
        Splice.suffixAfter before none ≠ [] ∧
        body = before ++ Splice.suffixAfter before none ++ Byte.closeBrace :: rest := by
  have hbroken : Operation.run (.insertRaw .broken) (after [.insertRaw .bare]) =
      (.error (.invalidDocument "broken" .missingBrace), after [.insertRaw .bare]) :=
    Operation.run_of_result_eq_error rfl
  have hgoal : ((after [.insertRaw .bare]).builder {}).goal "g" none =
      .ok (Splice.goal (Bytes.ofString "\x7b\x7d") none) := by
    rw [goal_builder, after_insertRaw_bare, goalDocument?_insert]
    rfl
  obtain ⟨_, hsafe, _, _, hgoals⟩ := checked_and_unchanged_on_error [.insertRaw .bare] {}
  obtain ⟨before, rest, hdoc, _, hsuffix, hbody⟩ := hgoals "g" none _ hgoal
  refine ⟨congrArg Prod.fst hbroken, hsafe _ _ (congrArg Prod.fst hbroken), ?_⟩
  exact ⟨_, before, rest, hgoal, hdoc, hsuffix, hbody⟩

end Cache

end GoalProgress
