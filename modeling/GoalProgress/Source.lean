import GoalProgress.Config
import GoalProgress.Definition.Reader
import GoalProgress.Files.System
import GoalProgress.Progress.Lookup
import GoalProgress.Progress.Reader
import GoalProgress.Snapshot

/-!
# Sources of documents and progress

The documents of a run come from a file of definitions or from a snapshot, and the progress from a
file of records. This module selects the source and loads the files.

## Main definitions

* `DocumentSource.select`: the source that the command line and the configuration ask for.
* `DocumentSource.load`: the cache with the documents of a source.
* `Snapshot.save`, `Cache.save`: write a snapshot.
* `Lookup.load`: the records of a progress file.
-/
namespace GoalProgress

/-- Where documents come from. -/
inductive DocumentSource where
  | definitions (path : String)
  | snapshot (path : String)
deriving DecidableEq, Repr

/-- The source that the command line asks for, or else the configuration; in both a snapshot goes
before definitions. -/
def DocumentSource.select (definitions snapshot : Option String) (config : CacheConfig) :
    Except Error DocumentSource :=
  match snapshot, definitions, config.snapshot, config.definitions with
  | some path, _, _, _ => .ok (.snapshot path)
  | none, some path, _, _ => .ok (.definitions path)
  | none, none, some path, _ => .ok (.snapshot path)
  | none, none, none, some path => .ok (.definitions path)
  | none, none, none, none => .error (.argument .noSource)

variable {m : Type → Type} [Monad m] [Files.FileSystem m]

/-- The content of a file that the program is asked to read. -/
def readInput (path : String) : ExceptT Error m Bytes := do
  match ← (Files.FileSystem.read (.ofString path) : m (Except Files.Problem Bytes)) with
  | .ok content => return content
  | .error problem => throw (.io path problem)

/-- The challenges in a file of definitions. -/
def Definition.load (path : String) : ExceptT Error m (List Challenge) := do
  MonadExcept.ofExcept (Definition.parse (← readInput path) path)

/-- The records in a progress file, found by goal. -/
def Lookup.load (path : String) : ExceptT Error m Lookup := do
  match ProgressRecord.readFile (← readInput path) with
  | .ok records => return .ofList records
  | .error problem => throw (.json path problem)

/-- The cache in a snapshot file. -/
def Cache.loadSnapshot (path : String) : ExceptT Error m Cache := do
  match ← (Files.FileSystem.read (.ofString path) : m (Except Files.Problem Bytes)) with
  | .ok content => MonadExcept.ofExcept (Cache.ofSnapshotBytes content)
  | .error problem => throw (.snapshot (.io problem))

/-- Write a snapshot, in place of the file that was there. -/
def Snapshot.save (s : Snapshot) (path : String) : ExceptT Error m Unit := do
  let write : ExceptT Files.Problem m Unit := Files.FileSystem.replace (.ofString path) s.encode
  match ← (write.run : m (Except Files.Problem Unit)) with
  | .ok () => return ()
  | .error problem => throw (.snapshot (.io problem))

/-- Write a snapshot of a cache, in place of the file that was there. -/
def Cache.save (cache : Cache) (path : String) : ExceptT Error m Unit := cache.toSnapshot.save path

/-- The cache with the documents of a source. -/
def DocumentSource.load : DocumentSource → ExceptT Error m Cache
  | .definitions path => do MonadExcept.ofExcept (Cache.ofChallenges (← Definition.load path))
  | .snapshot path => Cache.loadSnapshot path

end GoalProgress
