import GoalProgress.Proofs.Cache.Checked
import GoalProgress.Proofs.Files.Tree
import GoalProgress.Proofs.Snapshot.Codec
import GoalProgress.Source

/-!
# A saved cache is loaded again

A cache lists its entries in an order of its own when it is saved. Whatever the order, the cache
that is loaded from the file is the one that was saved, and bytes behind the snapshot are of no
account.

## Main definitions

* `Snapshot.Lists`: the snapshots that a cache may be saved as.
-/
namespace GoalProgress

open Files (FileTree)

/-! ## The contents of a snapshot -/

/-- A challenge as the cache has it. -/
def SnapshotChallenge.entry (c : SnapshotChallenge) : String × ChallengeEntry :=
  (c.id, ⟨c.document, c.goalIds⟩)

/-- Writing challenges changes no goals. -/
theorem Cache.foldl_insertChallenge (cs : List SnapshotChallenge) (cache : Cache) :
    cs.foldl (fun cache c => cache.insertChallenge c.id ⟨c.document, c.goalIds⟩) cache =
      ⟨(cs.map (·.entry)).foldl (fun t e => t.insert e.1 e.2) cache.challenges, cache.goals⟩ := by
  induction cs generalizing cache with
  | nil => rfl
  | cons c cs ih => exact ih _

namespace Snapshot

/-- A snapshot with the present versions that lists the entries of a cache, in whatever order. -/
structure Lists (s : Snapshot) (cache : Cache) : Prop where
  version : s.version = currentVersion
  writer : s.writer = currentWriter
  challenges : s.challenges.Perm cache.toSnapshot.challenges
  goals : s.goals.Perm cache.toSnapshot.goals

theorem lists_toSnapshot (cache : Cache) : cache.toSnapshot.Lists cache := ⟨rfl, rfl, .rfl, .rfl⟩

namespace Lists

variable {s : Snapshot} {cache : Cache}

/-- **The entries of a cache make up the cache.** -/
theorem contents_eq (h : s.Lists cache) : s.contents = cache := by
  have hentries : (s.challenges.map (·.entry)).Perm cache.challenges.toList := by
    have hmap := h.challenges.map (·.entry)
    rwa [Cache.toSnapshot, List.map_map, List.map_id''] at hmap
    exact fun _ => rfl
  rw [contents, Cache.foldl_insertGoal, Cache.foldl_insertChallenge]
  exact congr (congrArg Cache.mk (foldl_insert_of_perm hentries)) (foldl_insert_of_perm h.goals)

/-- The entries of a checked cache can be taken into use. -/
theorem usable (h : s.Lists cache) (hcache : cache.Checked) : s.Usable where
  version := h.version
  writer := h.writer
  goals g hg := by
    have hmem : g ∈ cache.goals.toList := h.goals.mem_iff.1 hg
    exact hcache.goal (Std.ExtTreeMap.mem_toList_iff_getElem?_eq_some.1 hmem)
  challenges c hc := by
    obtain ⟨⟨id, e⟩, hmem, rfl⟩ := List.mem_map.1 (h.challenges.mem_iff.1 hc)
    have hentry := Std.ExtTreeMap.mem_toList_iff_getElem?_eq_some.1 hmem
    exact hcache.challenge (by rw [Cache.challengeDocument?, hentry]; rfl)

/-- A checked cache is read back from the bytes of its entries, whatever follows them. -/
theorem ofSnapshotBytes_encode (h : s.Lists cache) (hcache : cache.Checked)
    (hlength : s.encode.length < UInt64.size) (rest : Bytes) :
    Cache.ofSnapshotBytes (s.encode ++ rest) = .ok cache := by
  have hversion : s.version < UInt32.size := by
    rw [h.version]
    decide
  exact (Cache.ofSnapshotBytes_eq_ok_iff _ _).2
    ⟨s, decode_encode hversion hlength rest, h.usable hcache, h.contents_eq.symm⟩

end Lists

/-! ## Files -/

/-- A snapshot is saved by putting its file in place, and fails as that does. -/
theorem run_save {σ : Type} [Files.FileSystem (StateM σ)] (s : Snapshot) (path : String)
    (files : σ) :
    (s.save path : ExceptT Error (StateM σ) Unit).run.run files =
      match (Files.FileSystem.replace (.ofString path) s.encode :
        ExceptT Files.Problem (StateM σ) Unit).run.run files with
      | (.ok _, left) => (.ok (), left)
      | (.error problem, left) => (.error (.snapshot (.io problem)), left) := by
  cases hreplace : (Files.FileSystem.replace (.ofString path) s.encode :
      ExceptT Files.Problem (StateM σ) Unit).run.run files with
  | mk result left =>
    rw [save, run_liftM_bind hreplace]
    cases result <;> rfl

theorem replace_of_save {s : Snapshot} {path : String} {t t' : FileTree}
    (h : (s.save path : ExceptT Error (StateM FileTree) Unit).run.run t = (.ok (), t')) :
    (Files.FileSystem.replace (.ofString path) s.encode :
      ExceptT Files.Problem (StateM FileTree) Unit).run.run t = (.ok (), t') := by
  rw [run_save] at h
  split at h
  · rename_i hreplace
    cases h
    exact hreplace
  · cases h

/-- A snapshot that was saved is the content of its file. -/
theorem read_of_save {s : Snapshot} {path : String} {t t' : FileTree}
    (h : (s.save path : ExceptT Error (StateM FileTree) Unit).run.run t = (.ok (), t')) :
    t'.read (.ofString path) = .ok s.encode :=
  Files.FileSystem.read_of_replace (replace_of_save h)

end Snapshot

namespace Cache

theorem loadSnapshot_of_read {path : String} {t : FileTree} {file : Bytes}
    (h : t.read (.ofString path) = .ok file) :
    (loadSnapshot path : ExceptT Error (StateM FileTree) Cache).run.run t =
      (ofSnapshotBytes file, t) := by
  have hread : (Files.FileSystem.read (.ofString path) : StateM FileTree _).run t =
      (.ok file, t) := congrArg (·, t) h
  rw [loadSnapshot, run_liftM_bind hread]
  simp only
  cases ofSnapshotBytes file <;> rfl

/-- **A saved cache is loaded again as it was.** Whatever operations the cache has been through, in
whatever order its entries are listed and whatever bytes are appended to the file, loading succeeds
and gives the same cache. The length of the file is a number of 64 bits. -/
theorem loadSnapshot_save (ops : List Operation) {s : Snapshot} (hs : s.Lists (after ops))
    (hlength : s.encode.length < UInt64.size) {path : String} {t t' : FileTree}
    (hsave : (s.save path : ExceptT Error (StateM FileTree) Unit).run.run t = (.ok (), t')) :
    (loadSnapshot path : ExceptT Error (StateM FileTree) Cache).run.run t' =
        (.ok (after ops), t') ∧
      ∃ file, t'.read (.ofString path) = .ok file ∧
        ∀ extra t'', t''.read (.ofString path) = .ok (file ++ extra) →
          (loadSnapshot path : ExceptT Error (StateM FileTree) Cache).run.run t'' =
            (.ok (after ops), t'') := by
  have hfile := Snapshot.read_of_save hsave
  have hload (extra : Bytes) (t'' : FileTree)
      (hread : t''.read (.ofString path) = .ok (s.encode ++ extra)) :
      (loadSnapshot path : ExceptT Error (StateM FileTree) Cache).run.run t'' =
        (.ok (after ops), t'') := by
    rw [loadSnapshot_of_read hread, hs.ofSnapshotBytes_encode (Checked.after ops) hlength]
  refine ⟨hload [] t' ?_, s.encode, hfile, hload⟩
  rw [List.append_nil, hfile]

end Cache

/-- A snapshot of a cache with one challenge, in which the second of its goals comes first. -/
def Snapshot.ofBare : Snapshot where
  version := 1
  writer := "0.1.0"
  challenges := [⟨"c", Bytes.ofString "\x7b\x7d", ["g", "h"]⟩]
  goals := [("h", Bytes.ofString "\x7b\x7d"), ("g", Bytes.ofString "\x7b\x7d")]

theorem Snapshot.lists_ofBare : ofBare.Lists (.after [.insertRaw .bare]) := by
  have hchallenges : (Cache.empty.insert .bare).toSnapshot.challenges = ofBare.challenges := rfl
  have hgoals : (Cache.empty.insert .bare).toSnapshot.goals = ofBare.goals.reverse := by
    decide +kernel
  refine ⟨rfl, rfl, ?_, ?_⟩
  · rw [Cache.after_insertRaw_bare, hchallenges]
  · rw [Cache.after_insertRaw_bare, hgoals]
    exact (List.reverse_perm _).symm

theorem Cache.loadSnapshot_save_ofBare :
    Snapshot.ofBare.Lists (after [.insertRaw .bare]) ∧ Snapshot.ofBare.encode.length < UInt64.size ∧
      ∃ t', (Snapshot.ofBare.save "cache.bin" :
          ExceptT Error (StateM FileTree) Unit).run.run FileTree.empty = (.ok (), t') ∧
        (loadSnapshot "cache.bin" : ExceptT Error (StateM FileTree) Cache).run.run t' =
          (.ok (after [.insertRaw .bare]), t') := by
  have hlength : Snapshot.ofBare.encode.length < UInt64.size := by decide +kernel
  have hsave : (Snapshot.ofBare.save "cache.bin" :
      ExceptT Error (StateM FileTree) Unit).run.run FileTree.empty = (.ok (), _) := rfl
  exact ⟨Snapshot.lists_ofBare, hlength, _, hsave,
    (loadSnapshot_save [.insertRaw .bare] Snapshot.lists_ofBare hlength hsave).1⟩

end GoalProgress
