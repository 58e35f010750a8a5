import GoalProgress.Proofs.Files.Touched
import GoalProgress.Proofs.Snapshot.RoundTrip

/-!
# Saving a snapshot leaves other files alone

A snapshot is first written to a file beside its own, which has the same name with the extension
`tmp`. Whatever that file held before is lost; no third file is touched, and the file of the
snapshot itself changes only if nothing fails. This holds on disks where any step may fail, and the
write part way.
-/
namespace GoalProgress

open Files (Disk FileTree Path)

/-- On a disk on which no mishap is to come, a snapshot is saved as in a tree of files. -/
theorem Snapshot.run_save_smooth (s : Snapshot) (path : String) (t : FileTree) :
    (s.save path : ExceptT Error (StateM Disk) Unit).run.run ⟨t, []⟩ =
      Prod.map id (fun tree => ⟨tree, []⟩)
        ((s.save path : ExceptT Error (StateM FileTree) Unit).run.run t) := by
  rw [run_save, run_save, Files.FileSystem.run_replace_smooth]
  obtain ⟨problem | _, left⟩ := (Files.FileSystem.replace (.ofString path) s.encode :
    ExceptT Files.Problem (StateM FileTree) Unit).run.run t <;> rfl

/-- **Saving touches the file of the snapshot and the one beside it**, whatever it lists, whether or
not it succeeds, and whatever mishaps there are; where there are none, this is saving in a tree of
files. All other files stay as they are, and there is no further one. If saving fails, only the file
beside the snapshot may have changed, so that the file of the snapshot is still the old one unless
it has the extension `tmp` itself; if saving succeeds, nothing is left beside it. -/
theorem Snapshot.save_touches (s : Snapshot) (path : String) (d : Disk) :
    ∃ result d', (s.save path : ExceptT Error (StateM Disk) Unit).run.run d = (result, d') ∧
      (d.mishaps = [] →
        (s.save path : ExceptT Error (StateM FileTree) Unit).run.run d.tree = (result, d'.tree)) ∧
      d.tree.Replaced d'.tree (.ofString path) ((Path.ofString path).withExtension "tmp")
        (result = .ok ()) ∧
      (result ≠ .ok () → (∀ stem, (Path.ofString path).names.getLast? ≠ some (stem ++ ".tmp")) →
        ∀ here, d'.tree.LeadsTo (.ofString path) here →
          d'.tree.file? here = d.tree.file? here) := by
  obtain ⟨result, d', hreplace, htouched⟩ := Files.FileSystem.replaced (.ofString path) s.encode d
  have hkept (hfailed : result ≠ .ok ())
      (hname : ∀ stem, (Path.ofString path).names.getLast? ≠ some (stem ++ ".tmp"))
      (here : Files.Location) (hplace : d'.tree.LeadsTo (.ofString path) here) :
      d'.tree.file? here = d.tree.file? here := by
    refine htouched.undone hfailed here fun hdraft => ?_
    obtain ⟨stem, hstem⟩ := hplace.exists_extension hdraft
    rw [String.append_assoc] at hstem
    exact hname stem hstem
  have hsmooth {outcome : Except Error Unit}
      (hrun : (s.save path : ExceptT Error (StateM Disk) Unit).run.run d = (outcome, d'))
      (hmishaps : d.mishaps = []) :
      (s.save path : ExceptT Error (StateM FileTree) Unit).run.run d.tree = (outcome, d'.tree) := by
    obtain ⟨tree, mishaps⟩ := d
    obtain rfl : mishaps = [] := hmishaps
    rw [run_save_smooth] at hrun
    obtain ⟨rfl, rfl⟩ := Prod.mk.inj hrun
    rfl
  have hrun := run_save s path d
  rw [hreplace] at hrun
  cases result with
  | error problem =>
    refine ⟨_, _, hrun, hsmooth hrun, ?_, fun _ => hkept nofun⟩
    simpa using htouched
  | ok _ => exact ⟨_, _, hrun, hsmooth hrun, by simpa using htouched, fun h => absurd rfl h⟩

/-- A disk that is full after three bytes, with an old snapshot. -/
def Files.Disk.full : Disk where
  tree := FileTree.empty.put ["cache.bin"] (.file (Bytes.ofString "old"))
  mishaps := [some (.brokenOff 3 (.other "No space left on device (os error 28)"))]

/-- Where the disk is full, the old snapshot stays, and the start of the new one is beside it. -/
theorem Snapshot.save_touches_full :
    ∃ problem d', (Cache.empty.toSnapshot.save "cache.bin" :
        ExceptT Error (StateM Disk) Unit).run.run Disk.full = (.error problem, d') ∧
      d'.tree.file? ["cache.tmp"] = some (Cache.empty.toSnapshot.encode.take 3) ∧
      d'.tree.file? ["cache.bin"] = some (Bytes.ofString "old") := by
  obtain ⟨problem, left, hfull, hdraft, hleads⟩ :
    ∃ problem d', (Cache.empty.toSnapshot.save "cache.bin" :
        ExceptT Error (StateM Disk) Unit).run.run Disk.full = (.error problem, d') ∧
      d'.tree.file? ["cache.tmp"] = some (Cache.empty.toSnapshot.encode.take 3) ∧
      d'.tree.LeadsTo (.ofString "cache.bin") ["cache.bin"] := ⟨_, _, rfl, rfl, rfl⟩
  have hname (stem : String) :
      (Path.ofString "cache.bin").names.getLast? ≠ some (stem ++ ".tmp") := by
    intro h
    have heq : "cache.bin" = stem ++ ".tmp" := Option.some.inj h
    have hend : "cache.bin".toList.getLast? = some 'n' := by decide
    have htmp : ".tmp".toList = ['.', 't', 'm'] ++ ['p'] := by decide
    rw [heq, String.toList_append, htmp, ← List.append_assoc, List.getLast?_concat] at hend
    cases hend
  obtain ⟨result, d', hrun, -, -, hkept⟩ :=
    save_touches Cache.empty.toSnapshot "cache.bin" Disk.full
  rw [hfull] at hrun
  cases hrun
  exact ⟨problem, left, hfull, hdraft, hkept nofun hname ["cache.bin"] hleads⟩

/-- A file that has the name of the one beside the snapshot is gone after saving; where a directory
has the name of the snapshot, the file beside it is left over; and a snapshot with the extension
`tmp`, which is written in place, is lost where the disk is full. -/
theorem Cache.save_takes_draft :
    (∃ d', (empty.save "cache.bin" : ExceptT Error (StateM Disk) Unit).run.run
          ⟨FileTree.empty.put ["cache.tmp"] (.file (Bytes.ofString "x")), []⟩ = (.ok (), d') ∧
        (FileTree.empty.put ["cache.tmp"] (.file (Bytes.ofString "x"))).file? ["cache.tmp"] =
          some (Bytes.ofString "x") ∧
        d'.tree.file? ["cache.tmp"] = none) ∧
      (∃ d', (empty.save "out" : ExceptT Error (StateM Disk) Unit).run.run
          ⟨FileTree.empty.put ["out"] .directory, []⟩ =
            (.error (.snapshot (.io .isDirectory)), d') ∧
        (FileTree.empty.put ["out"] .directory).file? ["out.tmp"] = none ∧
        d'.tree.file? ["out.tmp"] = some empty.toSnapshot.encode) ∧
      ∃ problem d', (empty.save "cache.tmp" : ExceptT Error (StateM Disk) Unit).run.run
          ⟨FileTree.empty.put ["cache.tmp"] (.file (Bytes.ofString "old")),
            Disk.full.mishaps⟩ = (.error problem, d') ∧
        d'.tree.file? ["cache.tmp"] = some (empty.toSnapshot.encode.take 3) ∧
        empty.toSnapshot.encode.take 3 ≠ Bytes.ofString "old" :=
  ⟨⟨_, rfl, rfl, rfl⟩, ⟨_, rfl, rfl, rfl⟩, _, _, rfl, rfl, by decide +kernel⟩

end GoalProgress
