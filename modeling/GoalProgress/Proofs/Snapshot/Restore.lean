import GoalProgress.Snapshot

/-!
# Taking a snapshot into use

A snapshot is taken into use exactly if it has the present versions and all its documents pass the
check, and then the cache holds its entries and nothing else.

## Main definitions

* `Snapshot.Usable`: the snapshots that are taken into use.
* `Snapshot.contents`: the cache with the entries of a snapshot.
-/
namespace GoalProgress

namespace Snapshot

/-- What a snapshot needs for being taken into use. -/
structure Usable (s : Snapshot) : Prop where
  version : s.version = currentVersion
  writer : s.writer = currentWriter
  goals : ∀ g ∈ s.goals, Document.check g.1 g.2 = .ok ()
  challenges : ∀ c ∈ s.challenges, Document.check c.id c.document = .ok ()

/-- The cache with the entries of a snapshot, each in place of an earlier one with the same id. -/
def contents (s : Snapshot) : Cache :=
  s.challenges.foldl (fun cache c => cache.insertChallenge c.id ⟨c.document, c.goalIds⟩)
    (s.goals.foldl (fun cache g => cache.insertGoal g.1 g.2) .empty)

end Snapshot

namespace Cache

/-- Entries that are checked and written one after the other are all written exactly if all of them
pass. -/
theorem restore_eq_ok_iff {α : Type} {check : α → Except Error Unit} {write : Cache → α → Cache}
    {restore : Cache → List α → Except Error Cache} (hnil : ∀ cache, restore cache [] = .ok cache)
    (hcons : ∀ cache a as, restore cache (a :: as) = do check a; restore (write cache a) as)
    (cache new : Cache) (as : List α) :
    restore cache as = .ok new ↔ (∀ a ∈ as, check a = .ok ()) ∧ new = as.foldl write cache := by
  induction as generalizing cache with
  | nil => simp [hnil, eq_comm]
  | cons a as ih =>
    rw [hcons, List.forall_mem_cons, List.foldl_cons, and_assoc, ← ih]
    cases check a <;> simp [bind, Except.bind]

theorem restoreGoals_eq_ok_iff (cache new : Cache) (gs : List (String × Bytes)) :
    cache.restoreGoals gs = .ok new ↔
      (∀ g ∈ gs, Document.check g.1 g.2 = .ok ()) ∧
        new = gs.foldl (fun cache g => cache.insertGoal g.1 g.2) cache :=
  restore_eq_ok_iff (fun _ => rfl) (fun _ _ _ => rfl) cache new gs

theorem restoreChallenges_eq_ok_iff (cache new : Cache) (cs : List SnapshotChallenge) :
    cache.restoreChallenges cs = .ok new ↔
      (∀ c ∈ cs, Document.check c.id c.document = .ok ()) ∧
        new = cs.foldl (fun cache c => cache.insertChallenge c.id ⟨c.document, c.goalIds⟩) cache :=
  restore_eq_ok_iff (fun _ => rfl) (fun _ _ _ => rfl) cache new cs

/-- **Snapshots with the present versions and fit documents are taken into use, and no others.** -/
theorem ofSnapshot_eq_ok_iff (s : Snapshot) (new : Cache) :
    ofSnapshot s = .ok new ↔ s.Usable ∧ new = s.contents := by
  have hsteps : ofSnapshot s = .ok new ↔ s.version = Snapshot.currentVersion ∧
      s.writer = Snapshot.currentWriter ∧
      ∃ goals, empty.restoreGoals s.goals = .ok goals ∧
        goals.restoreChallenges s.challenges = .ok new := by
    rw [ofSnapshot]
    by_cases hversion : s.version = Snapshot.currentVersion
    · by_cases hwriter : s.writer = Snapshot.currentWriter
      · cases empty.restoreGoals s.goals <;> simp [hversion, hwriter, bind, Except.bind]
      · simp [hversion, hwriter, bind, Except.bind, throw, throwThe, MonadExceptOf.throw]
    · simp [hversion, bind, Except.bind, throw, throwThe, MonadExceptOf.throw]
  rw [hsteps]
  constructor
  · rintro ⟨hversion, hwriter, goals, hgoals, hchallenges⟩
    obtain ⟨hfit, rfl⟩ := (restoreGoals_eq_ok_iff _ _ _).1 hgoals
    obtain ⟨hfit', hnew⟩ := (restoreChallenges_eq_ok_iff _ _ _).1 hchallenges
    exact ⟨⟨hversion, hwriter, hfit, hfit'⟩, hnew⟩
  · rintro ⟨h, hnew⟩
    exact ⟨h.version, h.writer, _, (restoreGoals_eq_ok_iff _ _ _).2 ⟨h.goals, rfl⟩,
      (restoreChallenges_eq_ok_iff _ _ _).2 ⟨h.challenges, hnew⟩⟩

/-- A file is taken into use if the snapshot in it is. -/
theorem ofSnapshotBytes_eq_ok_iff (file : Bytes) (new : Cache) :
    ofSnapshotBytes file = .ok new ↔
      ∃ s, Snapshot.decode file = .ok s ∧ s.Usable ∧ new = s.contents := by
  rw [ofSnapshotBytes]
  cases Snapshot.decode file with
  | error problem => simp
  | ok s => simp [ofSnapshot_eq_ok_iff]

end Cache

end GoalProgress
