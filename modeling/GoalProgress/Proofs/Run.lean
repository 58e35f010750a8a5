import GoalProgress.Proofs.Files.Frame
import GoalProgress.Proofs.Source
import GoalProgress.Run

/-!
# Runs from a snapshot and from its definitions

Once a snapshot has been written, it makes no difference any more whether documents come from it or
from the definitions that it was written from: every run shows the same and ends in the same way,
also if it fails.

## Main definitions

* `FileTree.config`, `FileTree.cache`: the configuration and the documents of a run.
* `FileTree.runProgram`: how the program ends in a tree of files.
* `Request`: what can be asked about documents, wherever they come from.
-/
namespace GoalProgress

open Files (FileTree Path)

/-! ## Configurations -/

namespace Files.FileTree

variable (t : FileTree)

/-- The text of a file. -/
def text (p : Path) : Except Files.Problem String :=
  match t.read p with
  | .error problem => .error problem
  | .ok content =>
    match content.toString? with
    | some s => .ok s
    | none => .error .notText

/-- The configuration in a file. -/
def configAt (path : String) : ConfigReading :=
  match t.text (.ofString path) with
  | .ok text => Config.parse text path
  | .error problem => ⟨[], .error (.io path problem)⟩

/-- The configuration that is in force. -/
def config (path? : Option String) (directory : String) : ConfigReading :=
  match path? with
  | some path => t.configAt path
  | none =>
    let path := Path.join directory Config.fileName
    if t.isFile (.ofString path) then t.configAt path else ⟨[], .ok {}⟩

end Files.FileTree

namespace Config

theorem run_readText (p : Path) (t : FileTree) :
    (Files.FileSystem.readText p : ExceptT Files.Problem (StateM FileTree) String).run.run t =
      (t.text p, t) := by
  have hread : (ExceptT.mk (Files.FileSystem.read p) :
      ExceptT Files.Problem (StateM FileTree) Bytes).run.run t = (t.read p, t) := rfl
  rw [Files.FileSystem.readText, run_bind, hread, FileTree.text]
  cases t.read p with
  | error problem => rfl
  | ok content =>
    simp only
    cases content.toString? <;> rfl

theorem run_load (path : String) (t : FileTree) :
    (load path : StateM FileTree ConfigReading).run t = (t.configAt path, t) := by
  rw [load, run_bind_of_run (run_readText (.ofString path) t), FileTree.configAt]
  cases t.text (.ofString path) <;> rfl

/-- Finding the configuration changes no file. -/
theorem run_resolve (path? : Option String) (directory : String) (t : FileTree) :
    (resolve path? directory : StateM FileTree ConfigReading).run t =
      (t.config path? directory, t) := by
  cases path? with
  | some path => exact run_load path t
  | none =>
    have hfile : (Files.FileSystem.isFile (.ofString (Path.join directory fileName)) :
        StateM FileTree Bool).run t = (t.isFile (.ofString (Path.join directory fileName)), t) :=
      rfl
    rw [resolve, run_bind_of_run hfile, FileTree.config]
    cases t.isFile (.ofString (Path.join directory fileName)) with
    | true => exact run_load _ t
    | false => rfl

end Config

/-! ## Commands -/

theorem Error.exitCode_ne_zero (e : Error) : e.exitCode ≠ 0 := by
  cases e <;> simp [exitCode]

theorem Outcome.exitCode_ne_zero {o : Outcome} {e : Error} (h : o.failure = some e) :
    o.exitCode ≠ 0 := by
  rw [exitCode, h]
  exact e.exitCode_ne_zero

namespace Command

/-- The outcome of a run: what the command shows, or the first error. -/
theorem run_eq (command : Command) (config? : Option String) (directory : String) (t : FileTree) :
    (command.run config? directory : StateM FileTree Outcome).run t =
      match (t.config config? directory).result with
      | .error e =>
        ({ notices := (t.config config? directory).unrecognized.map .unrecognized
           failure := some e }, t)
      | .ok config =>
        match ((command.execute config : FileM Report).run.run t : Except Error Report × _) with
        | (.error e, left) =>
          ({ notices := (t.config config? directory).unrecognized.map .unrecognized
             failure := some e }, left)
        | (.ok report, left) =>
          ({ output := report.output
             notices := (t.config config? directory).unrecognized.map .unrecognized ++
               report.notices }, left) := by
  rw [run, run_bind_of_run (Config.run_resolve config? directory t)]
  cases (t.config config? directory).result with
  | error e => rfl
  | ok config =>
    obtain ⟨⟨result, left⟩, hresult⟩ :
      ∃ r, (command.execute config : FileM Report).run.run t = r := ⟨_, rfl⟩
    simp only [run_bind_of_run hresult, hresult]
    cases result <;> rfl

/-- The outcome of a run only depends on what the command shows. -/
theorem run_congr {command command' : Command} {t : FileTree}
    (h : ∀ config, (command.execute config : FileM Report).run.run t =
      (command'.execute config : FileM Report).run.run t)
    (config? : Option String) (directory : String) :
    (command.run config? directory : StateM FileTree Outcome).run t =
      (command'.run config? directory : StateM FileTree Outcome).run t := by
  simp only [run_eq, h]

/-- A command that is carried out without an error has shown something. -/
theorem exists_execute_of_exitCode_eq_zero {command : Command} {config? : Option String}
    {directory : String} {t t' : FileTree} {outcome : Outcome}
    (h : (command.run config? directory : StateM FileTree Outcome).run t = (outcome, t'))
    (hexit : outcome.exitCode = 0) :
    ∃ config report, (command.execute config : FileM Report).run.run t = (.ok report, t') := by
  rw [run_eq] at h
  split at h
  · cases h
    exact absurd hexit (Outcome.exitCode_ne_zero rfl)
  · rename_i config _
    split at h
    · cases h
      exact absurd hexit (Outcome.exitCode_ne_zero rfl)
    · rename_i report left hreport
      cases h
      exact ⟨config, report, hreport⟩

/-- A snapshot is written by loading the definitions and saving the cache. -/
theorem exists_save_of_execute_snapshot {path origin : String} {config : Config} {t t' : FileTree}
    {report : Report}
    (h : ((Command.snapshot path (some origin)).execute config : FileM Report).run.run t =
      (.ok report, t')) :
    ∃ cache loaded,
      ((DocumentSource.definitions origin).load : FileM Cache).run.run t = (.ok cache, loaded) ∧
        (cache.save path : FileM Unit).run.run loaded = (.ok (), t') := by
  rw [execute] at h
  obtain ⟨cache, loaded, hload, hrest⟩ := run_bind_eq_ok_iff.1 h
  obtain ⟨_, left, hsave, hreport⟩ := run_bind_eq_ok_iff.1 hrest
  cases hreport
  exact ⟨cache, loaded, hload, hsave⟩

end Command

/-! ## The program -/

/-- How the program ends in a tree of files, and the tree that it leaves. -/
abbrev Files.FileTree.runProgram (t : FileTree) (configDefault : Option String)
    (args : List String) (directory : String) : Ending × FileTree :=
  (run configDefault args directory : StateM FileTree Ending).run t

/-- A run whose arguments ask for a command carries it out. -/
theorem runProgram_of_read {configDefault config? : Option String} {args : List String}
    {command : Command} (h : Arguments.read configDefault args = .ok ⟨config?, some command⟩)
    (directory : String) (t : FileTree) :
    t.runProgram configDefault args directory =
      Prod.map .finished id
        ((command.run config? directory : StateM FileTree Outcome).run t) := by
  rw [FileTree.runProgram, run, h]
  rfl

theorem exists_outcome_of_runProgram {configDefault config? : Option String}
    {args : List String} {command : Command}
    (h : Arguments.read configDefault args = .ok ⟨config?, some command⟩) {directory : String}
    {t t' : FileTree} {ending : Ending}
    (hrun : t.runProgram configDefault args directory = (ending, t')) :
    ∃ outcome, (command.run config? directory : StateM FileTree Outcome).run t = (outcome, t') ∧
      ending = .finished outcome := by
  rw [runProgram_of_read h] at hrun
  obtain ⟨⟨outcome, left⟩, houtcome⟩ :
    ∃ r, (command.run config? directory : StateM FileTree Outcome).run t = r := ⟨_, rfl⟩
  rw [houtcome] at hrun
  cases hrun
  exact ⟨outcome, houtcome, rfl⟩

/-! ## Requests -/

/-- The cache with the documents that the arguments or the configuration name. -/
def Files.FileTree.cache (t : FileTree) (source : SourceArguments) (config : Config) :
    Except Error Cache := do
  t.documents (← DocumentSource.select source.definitions source.snapshot config.cache)

theorem SourceArguments.run_load (source : SourceArguments) (config : Config) (t : FileTree) :
    (source.load config : FileM Cache).run.run t = (t.cache source config, t) :=
  run_bind_of_eq (run_ofExcept _ t) fun origin => origin.run_load t

/-- What can be asked about documents, wherever they come from. -/
inductive Request where
  | render (ids : List String) (progress : Option String) (single : Bool)
  | goal (id : String) (progress : Option String)
  | stats (format : StatsFormat)
deriving DecidableEq, Repr

namespace Request

/-- The command that answers a request from a source. -/
def command (source : SourceArguments) : Request → Command
  | .render ids progress single => .render ids source progress single
  | .goal id progress => .goal id source progress
  | .stats format => .stats source format

/-- Requests are answered alike from two sources if the same is loaded from them. -/
theorem execute_congr {source source' : SourceArguments} {config : Config} {t : FileTree}
    (h : (source.load config : FileM Cache).run.run t =
      (source'.load config : FileM Cache).run.run t) (request : Request) :
    ((request.command source).execute config : FileM Report).run.run t =
      ((request.command source').execute config : FileM Report).run.run t := by
  cases request <;> simp only [command, Command.execute, run_bind, h]

/-- **Where there are definitions and a snapshot of them, requests are answered alike from
both.** The snapshot may list the entries in whatever order. -/
theorem run_snapshot_eq {origin path : String} {t : FileTree} {file : Bytes} {cs : List Challenge}
    {s : Snapshot} (hread : t.read (.ofString origin) = .ok file)
    (hparse : Definition.parse file origin = .ok cs)
    (hsnapshot : t.read (.ofString path) = .ok s.encode) (hs : s.Lists (Cache.empty.loaded cs))
    (hlength : s.encode.length < UInt64.size) (request : Request) (config? : Option String)
    (directory : String) :
    ((request.command ⟨none, some path⟩).run config? directory : StateM FileTree Outcome).run t =
      ((request.command ⟨some origin, none⟩).run config? directory :
        StateM FileTree Outcome).run t := by
  refine Command.run_congr (fun config => execute_congr ?_ request) config? directory
  rw [SourceArguments.run_load, SourceArguments.run_load]
  exact congrArg (·, t) (DocumentSource.documents_snapshot_eq hread hparse hsnapshot hs hlength)

end Request

/-- **A snapshot serves exactly what its definitions serve.** If a run has written a snapshot of
definitions without an error, then every further run that renders challenges, renders a goal or
shows statistics ends alike and leaves the same files behind, whether documents come from the
snapshot or from the definitions. The same is true in every tree with these definitions in which the
snapshot lists its entries in another order.

The definitions must not be in the place of the snapshot, nor in the one beside it where the
snapshot is written first. The length of the snapshot is a number of 64 bits. -/
theorem run_snapshot_eq_run_definitions {configDefault config₀ : Option String}
    {asked : List String} {path origin directory : String} {t t' : FileTree} {ending : Ending}
    (hasked : Arguments.read configDefault asked =
      .ok ⟨config₀, some (.snapshot path (some origin))⟩)
    (hrun : t.runProgram configDefault asked directory = (ending, t'))
    (hexit : ending.exitCode = 0)
    (hplace : t'.target (.ofString path) ≠ t'.target (.ofString origin))
    (hdraft : t'.target ((Path.ofString path).withExtension "tmp") ≠
      t'.target (.ofString origin))
    (hlength : ∀ file, t'.read (.ofString path) = .ok file → file.length < UInt64.size)
    (request : Request) {configDefault' config? : Option String}
    {fromSnapshot fromDefinitions : List String}
    (hsnapshot : Arguments.read configDefault' fromSnapshot =
      .ok ⟨config?, some (request.command ⟨none, some path⟩)⟩)
    (hdefinitions : Arguments.read configDefault' fromDefinitions =
      .ok ⟨config?, some (request.command ⟨some origin, none⟩)⟩) :
    t'.runProgram configDefault' fromSnapshot directory =
        t'.runProgram configDefault' fromDefinitions directory ∧
      ∃ cache : Cache, t'.read (.ofString path) = .ok cache.toSnapshot.encode ∧
        ∀ (s : Snapshot) (t'' : FileTree), s.Lists cache → s.encode.length < UInt64.size →
          t''.read (.ofString path) = .ok s.encode →
          t''.read (.ofString origin) = t'.read (.ofString origin) →
          t''.runProgram configDefault' fromSnapshot directory =
            t''.runProgram configDefault' fromDefinitions directory := by
  obtain ⟨outcome, houtcome, rfl⟩ := exists_outcome_of_runProgram hasked hrun
  obtain ⟨config, report, hexecute⟩ :=
    Command.exists_execute_of_exitCode_eq_zero houtcome hexit
  obtain ⟨cache, loaded, hload, hsave⟩ := Command.exists_save_of_execute_snapshot hexecute
  obtain ⟨⟨file, cs, hread, hparse, rfl⟩, rfl⟩ :=
    DocumentSource.run_load_definitions_eq_ok_iff.1 hload
  -- the definitions are still there, and the snapshot lists what was loaded from them
  have hread' := Files.FileSystem.read_of_replace_of_ne (Snapshot.replace_of_save hsave) hplace
    hdraft hread
  have hfile := Snapshot.read_of_save hsave
  have halike (s : Snapshot) (t'' : FileTree) (hs : s.Lists (Cache.empty.loaded cs))
      (hlength : s.encode.length < UInt64.size) (hpath : t''.read (.ofString path) = .ok s.encode)
      (horigin : t''.read (.ofString origin) = t'.read (.ofString origin)) :
      t''.runProgram configDefault' fromSnapshot directory =
        t''.runProgram configDefault' fromDefinitions directory := by
    rw [runProgram_of_read hsnapshot, runProgram_of_read hdefinitions]
    exact congrArg _
      (request.run_snapshot_eq (horigin.trans hread') hparse hpath hs hlength config? directory)
  have hlists := Snapshot.lists_toSnapshot (Cache.empty.loaded cs)
  exact ⟨halike _ t' hlists (hlength _ hfile) hfile rfl, _, hfile, halike⟩

/-- A directory with nothing but a file of definitions, in which there is one challenge. -/
def Files.FileTree.withDefinitions : FileTree :=
  FileTree.empty.put ["defs.json"]
    (.file (Bytes.ofString "[\x7b\"challengeId\":\"c\",\"name\":\"C\"\x7d]"))

/-- The run that writes a snapshot of them. -/
def snapshotRun : Ending × FileTree :=
  FileTree.withDefinitions.runProgram none ["snapshot", "cache.bin", "-d", "defs.json"] "/work"

theorem run_snapshot_eq_run_definitions_rendered :
    snapshotRun.1.exitCode = 0 ∧
      (snapshotRun.2.runProgram none ["render", "--snapshot", "cache.bin", "c"]
        "/work").1.exitCode = 0 ∧
      snapshotRun.2.runProgram none ["render", "--snapshot", "cache.bin", "c"] "/work" =
        snapshotRun.2.runProgram none ["render", "c", "-d", "defs.json"] "/work" := by
  have hasked : Arguments.read none ["snapshot", "cache.bin", "-d", "defs.json"] =
      .ok ⟨none, some (.snapshot "cache.bin" (some "defs.json"))⟩ := rfl
  have hrun : FileTree.withDefinitions.runProgram none
      ["snapshot", "cache.bin", "-d", "defs.json"] "/work" =
        (snapshotRun.1, snapshotRun.2) := rfl
  have hexit : snapshotRun.1.exitCode = 0 := by decide +kernel
  have horigin : snapshotRun.2.target (.ofString "defs.json") = .ok (.name ["defs.json"]) := rfl
  have hplace : snapshotRun.2.target (.ofString "cache.bin") = .ok (.name ["cache.bin"]) := rfl
  have hdraft : snapshotRun.2.target ((Path.ofString "cache.bin").withExtension "tmp") =
      .ok (.name ["cache.tmp"]) := rfl
  have hlength : ((snapshotRun.2.read (.ofString "cache.bin")).toOption.getD []).length <
      UInt64.size := by decide +kernel
  have hsnapshot : Arguments.read none ["render", "--snapshot", "cache.bin", "c"] =
      .ok ⟨none, some (.render ["c"] ⟨none, some "cache.bin"⟩ none false)⟩ := rfl
  have hdefinitions : Arguments.read none ["render", "c", "-d", "defs.json"] =
      .ok ⟨none, some (.render ["c"] ⟨some "defs.json", none⟩ none false)⟩ := rfl
  refine ⟨hexit, by decide +kernel, ?_⟩
  refine (run_snapshot_eq_run_definitions hasked hrun hexit ?_ ?_ ?_ (.render ["c"] none false)
    hsnapshot hdefinitions).1
  · rw [hplace, horigin]
    simp
  · rw [hdraft, horigin]
    simp
  · intro file hfile
    rwa [hfile] at hlength

end GoalProgress
