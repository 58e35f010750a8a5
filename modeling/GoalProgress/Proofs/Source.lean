import GoalProgress.Proofs.Cache.Reload
import GoalProgress.Proofs.Snapshot.RoundTrip

/-!
# Two sources of the same documents

Definitions are decoded, looked through for ids that occur twice, printed and checked; a snapshot of
them is decoded and checked. Loading either changes no file, and where both files can be read, both
ways lead to the same cache.

## Main definitions

* `FileTree.documents`: what a tree of files has to offer as a source.
* `FileTree.records`: the progress records in a tree of files.
-/
namespace GoalProgress

open Files (FileTree)

/-- Programs on a tree of files that may fail. -/
abbrev FileM := ExceptT Error (StateM FileTree)

variable {path : String} {t left : FileTree}

/-! ## What a tree of files holds -/

namespace Files.FileTree

variable (t : FileTree)

/-- The content of a file, or the error of a program that is asked to read it. -/
def input (path : String) : Except Error Bytes := (t.read (.ofString path)).mapError (.io path)

/-- The cache with the documents of a source. -/
def documents : DocumentSource → Except Error Cache
  | .definitions path => do Cache.ofChallenges (← Definition.parse (← t.input path) path)
  | .snapshot path => do
    Cache.ofSnapshotBytes
      (← (t.read (.ofString path)).mapError fun problem => .snapshot (.io problem))

/-- The records in a progress file, if one is named. -/
def records : Option String → Except Error Lookup
  | some path => do
    return .ofList (← (ProgressRecord.readFile (← t.input path)).mapError (.json path))
  | none => return .empty

end Files.FileTree

theorem run_readInput (path : String) (t : FileTree) :
    (readInput path : FileM Bytes).run.run t = (t.input path, t) := by
  have hread : (Files.FileSystem.read (.ofString path) : StateM FileTree _).run t =
      (t.read (.ofString path), t) := rfl
  rw [readInput, run_liftM_bind hread, FileTree.input]
  cases t.read (.ofString path) <;> rfl

theorem Definition.run_load (path : String) (t : FileTree) :
    (load path : FileM (List Challenge)).run.run t =
      (t.input path >>= fun file => parse file path, t) :=
  run_bind_of_eq (run_readInput path t) fun file => run_ofExcept (parse file path) t

theorem Cache.run_loadSnapshot (path : String) (t : FileTree) :
    (loadSnapshot path : FileM Cache).run.run t = (t.documents (.snapshot path), t) := by
  have hread : (Files.FileSystem.read (.ofString path) : StateM FileTree _).run t =
      (t.read (.ofString path), t) := rfl
  rw [loadSnapshot, run_liftM_bind hread, FileTree.documents]
  cases t.read (.ofString path) with
  | error problem => rfl
  | ok content => exact run_ofExcept (ofSnapshotBytes content) t

/-- **Loading documents changes no file.** -/
theorem DocumentSource.run_load (source : DocumentSource) (t : FileTree) :
    (source.load : FileM Cache).run.run t = (t.documents source, t) := by
  cases source with
  | definitions path =>
    rw [load, FileTree.documents, ← bind_assoc]
    exact run_bind_of_eq (Definition.run_load path t) fun cs => run_ofExcept _ t
  | snapshot path => exact Cache.run_loadSnapshot path t

theorem Lookup.run_load (path : String) (t : FileTree) :
    (load path : FileM Lookup).run.run t = (t.records (some path), t) := by
  refine run_bind_of_eq (run_readInput path t) fun content => ?_
  cases ProgressRecord.readFile content <;> rfl

/-! ## Definitions -/

theorem input_eq_ok_iff {file : Bytes} :
    t.input path = .ok file ↔ t.read (.ofString path) = .ok file :=
  mapError_eq_ok_iff

namespace DocumentSource

theorem documents_definitions_eq_ok_iff {cache : Cache} :
    t.documents (definitions path) = .ok cache ↔
      ∃ file cs, t.read (.ofString path) = .ok file ∧ Definition.parse file path = .ok cs ∧
        cache = Cache.empty.loaded cs := by
  simp only [FileTree.documents, bind_eq_ok_iff, input_eq_ok_iff, Cache.ofChallenges_eq,
    Except.ok.injEq, eq_comm (a := cache), exists_and_left]

/-- Definitions are loaded if their file can be read and is accepted. No file is changed. -/
theorem run_load_definitions_eq_ok_iff {cache : Cache} :
    ((definitions path).load : FileM Cache).run.run t = (.ok cache, left) ↔
      (∃ file cs, t.read (.ofString path) = .ok file ∧ Definition.parse file path = .ok cs ∧
        cache = Cache.empty.loaded cs) ∧ left = t := by
  rw [run_load, Prod.mk.injEq, documents_definitions_eq_ok_iff, eq_comm (a := left)]

/-! ## Snapshots -/

/-- **A snapshot of definitions is loaded as the definitions are**, in whatever order it lists the
entries. -/
theorem documents_snapshot_eq {origin : String} {file : Bytes} {cs : List Challenge} {s : Snapshot}
    (hread : t.read (.ofString origin) = .ok file) (hparse : Definition.parse file origin = .ok cs)
    (hsnapshot : t.read (.ofString path) = .ok s.encode) (hs : s.Lists (Cache.empty.loaded cs))
    (hlength : s.encode.length < UInt64.size) :
    t.documents (snapshot path) = t.documents (definitions origin) := by
  have hchecked := Cache.Checked.empty.warmUp (Cache.empty.warmUp_eq cs)
  have hopen := hs.ofSnapshotBytes_encode hchecked hlength []
  rw [List.append_nil] at hopen
  rw [documents_definitions_eq_ok_iff.2 ⟨file, cs, hread, hparse, rfl⟩, FileTree.documents,
    hsnapshot]
  exact hopen

end DocumentSource

end GoalProgress
