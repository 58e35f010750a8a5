import GoalProgress.Proofs.Snapshot.Layout
import GoalProgress.Proofs.Snapshot.RoundTrip

/-!
# Snapshots of another format

The version stands at the start of a snapshot, but it is looked at only when the whole file has been
decoded, and in the present layout. Another version is therefore reported if the file happens to be
laid out as the present ones are; any other file is refused as one that cannot be decoded.
-/
namespace GoalProgress

open Files (FileTree)

/-- The bytes are laid out as the contents of a snapshot, whatever follows them. -/
def Snapshot.Readable (bs : Bytes) : Prop :=
  ∃ (s : Snapshot) (part extra : Bytes), bs = part ++ extra ∧ s.SpellsContents part

namespace Cache

variable {v : Nat} {rest : Bytes}

/-- A version is read from the start of a file, whatever follows it. -/
theorem decode_version (hv : v < UInt32.size) (rest : Bytes) :
    Varint.decode .word32 (Varint.encode v ++ rest) = .ok (v, rest) :=
  Varint.decode_encode (by decide) (by decide) (Varint.limit_word32 ▸ hv) rest

theorem ofSnapshotBytes_of_readable (hv : v < UInt32.size) (hne : v ≠ Snapshot.currentVersion)
    (h : Snapshot.Readable rest) :
    ofSnapshotBytes (Varint.encode v ++ rest) = .error (.snapshot (.version v)) := by
  obtain ⟨s, part, extra, happend, hpart⟩ := h
  have hdecode : Snapshot.decode (Varint.encode v ++ rest) = .ok { s with version := v } :=
    (Snapshot.decode_eq_ok_iff_of_version (decode_version hv rest)).2
      ⟨rfl, part, extra, happend, hpart⟩
  rw [ofSnapshotBytes, hdecode]
  simp only [ofSnapshot, if_pos hne]
  rfl

theorem ofSnapshotBytes_of_not_readable (hv : v < UInt32.size) (h : ¬ Snapshot.Readable rest) :
    ∃ problem, ofSnapshotBytes (Varint.encode v ++ rest) =
      .error (.snapshot (.decode problem)) := by
  cases hdecode : Snapshot.decode (Varint.encode v ++ rest) with
  | ok s =>
    obtain ⟨-, part, extra, happend, hpart⟩ :=
      (Snapshot.decode_eq_ok_iff_of_version (decode_version hv rest)).1 hdecode
    exact absurd ⟨s, part, extra, happend, hpart⟩ h
  | error problem =>
    refine ⟨problem, ?_⟩
    rw [ofSnapshotBytes, hdecode]

/-- **Another version is reported exactly if the rest of the file is laid out as now.** Otherwise
the file is refused because it cannot be decoded, and its version goes unnoticed. -/
theorem version_reported_iff {path : String} {t : FileTree}
    (hread : t.read (.ofString path) = .ok (Varint.encode v ++ rest)) (hv : v < UInt32.size)
    (hne : v ≠ Snapshot.currentVersion) :
    ((loadSnapshot path : ExceptT Error (StateM FileTree) Cache).run.run t =
        (.error (.snapshot (.version v)), t) ↔ Snapshot.Readable rest) ∧
      (¬ Snapshot.Readable rest → ∃ problem,
        (loadSnapshot path : ExceptT Error (StateM FileTree) Cache).run.run t =
          (.error (.snapshot (.decode problem)), t)) := by
  have hundecoded (h : ¬ Snapshot.Readable rest) : ∃ problem,
      (loadSnapshot path : ExceptT Error (StateM FileTree) Cache).run.run t =
        (.error (.snapshot (.decode problem)), t) := by
    obtain ⟨problem, hproblem⟩ := ofSnapshotBytes_of_not_readable hv h
    refine ⟨problem, ?_⟩
    rw [loadSnapshot_of_read hread, hproblem]
  refine ⟨⟨?_, ?_⟩, hundecoded⟩
  · intro hversion
    apply Classical.byContradiction
    intro hnot
    obtain ⟨problem, hproblem⟩ := hundecoded hnot
    rw [hversion] at hproblem
    cases hproblem
  · intro hreadable
    rw [loadSnapshot_of_read hread, ofSnapshotBytes_of_readable hv hne hreadable]

end Cache

/-- A file of version 2 that is laid out as now, without a writer, challenges or goals, and with one
byte more. -/
theorem Cache.version_reported_second :
    (FileTree.empty.put ["cache.bin"] (.file [2, 0, 0, 0, 7])).read (.ofString "cache.bin") =
        .ok (Varint.encode 2 ++ [0, 0, 0, 7]) ∧
      2 < UInt32.size ∧ 2 ≠ Snapshot.currentVersion ∧
      (loadSnapshot "cache.bin" : ExceptT Error (StateM FileTree) Cache).run.run
          (FileTree.empty.put ["cache.bin"] (.file [2, 0, 0, 0, 7])) =
        (.error (.snapshot (.version 2)),
          FileTree.empty.put ["cache.bin"] (.file [2, 0, 0, 0, 7])) := by
  have hread : (FileTree.empty.put ["cache.bin"] (.file [2, 0, 0, 0, 7])).read
      (.ofString "cache.bin") = .ok (Varint.encode 2 ++ [0, 0, 0, 7]) := by
    simp [Varint.encode]
    rfl
  have hzero : Varint.Spells .word64 0 [0] :=
    ⟨⟨[], 0, rfl, by simp, by decide⟩, by decide, rfl, by decide⟩
  have hreadable : Snapshot.Readable [0, 0, 0, 7] :=
    ⟨⟨2, "", [], []⟩, [0, 0, 0], [7], rfl, [0], [0], [0], ⟨[0], hzero, rfl⟩,
      ⟨[0], [], hzero, .nil, rfl⟩, ⟨[0], [], hzero, .nil, rfl⟩, rfl⟩
  have hreported := version_reported_iff hread (by decide) (by decide)
  exact ⟨hread, by decide, by decide, hreported.1.2 hreadable⟩

/-- A file that ends after another version is refused as one that ends too early. -/
theorem Cache.version_unnoticed :
    (loadSnapshot "cache.bin" : ExceptT Error (StateM FileTree) Cache).run.run
        (FileTree.empty.put ["cache.bin"] (.file (Varint.encode 2))) =
      (.error (.snapshot (.decode .endOfBuffer)),
        FileTree.empty.put ["cache.bin"] (.file (Varint.encode 2))) := by
  have hencode : Varint.encode 2 = [2] := by simp [Varint.encode]
  rw [hencode]
  rfl

end GoalProgress
