import GoalProgress.Arguments.Reader
import GoalProgress.Config.Reader
import GoalProgress.Response
import GoalProgress.Source

/-!
# Runs of the program

One run carries out one command: the configuration is resolved, the documents and the progress are
loaded, and the response or report is built as a whole before anything is shown. Only the command
that writes a snapshot changes a file.

## Main definitions

* `Command.execute`: what a command shows, or why it fails.
* `Command.run`: the outcome of carrying out a command.
* `run`: how the program ends that is given an argument list.
-/
namespace GoalProgress

/-- What is said beside the output. -/
inductive Notice where
  | unrecognized (key : UnrecognizedKey)
  | wrote (stats : CacheStats) (path : String)
deriving DecidableEq, Repr

/-- The wording of a notice. -/
def Notice.message : Notice → String
  | .unrecognized key =>
    "warning: " ++ key.path ++ ": unrecognized field `" ++ key.key ++ "` (ignored)"
  | .wrote stats path =>
    "wrote " ++ toString stats.challenges ++ " challenges (" ++ toString stats.goals ++
      " goals) to " ++ path

/-- What a command shows. -/
structure Report where
  output : Bytes := []
  notices : List Notice := []
deriving DecidableEq, Repr

/-- What a run shows, and the error that it ends with, if any. -/
structure Outcome extends Report where
  failure : Option Error := none

namespace Outcome

/-- The lines that are said beside the output; an error comes last. The lines of a log, which the
variable `GOALSPLICE_LOG` asks for, are not among them: logging is off. -/
def messages (o : Outcome) : List String :=
  (o.notices.map Notice.message ++ (o.failure.map Error.message).toList).map ("goalsplice: " ++ ·)

/-- The exit code: zero unless the run ends with an error. -/
def exitCode (o : Outcome) : UInt8 := (o.failure.map Error.exitCode).getD 0

end Outcome

/-! ## Statistics -/

namespace CacheStats

/-- The statistics, one to a line. -/
def printLines (s : CacheStats) : Bytes :=
  Bytes.ofString ("challenges: " ++ toString s.challenges ++ "\ngoals: " ++ toString s.goals ++
    "\nbytes: " ++ toString s.totalBytes ++ "\n")

/-- The statistics as a JSON object over several lines. -/
def printJson (s : CacheStats) : Bytes :=
  Bytes.ofString ("\x7b\n  \"challenges\": " ++ toString s.challenges ++ ",\n  \"goals\": " ++
    toString s.goals ++ ",\n  \"total_bytes\": " ++ toString s.totalBytes ++ "\n\x7d\n")

/-- The statistics in a form. -/
def print (s : CacheStats) : StatsFormat → Bytes
  | .text => s.printLines
  | .json => s.printJson

end CacheStats

/-! ## Commands -/

variable {m : Type → Type} [Monad m] [Files.FileSystem m]

/-- The cache with the documents that the arguments or the configuration name. -/
def SourceArguments.load (source : SourceArguments) (config : Config) : ExceptT Error m Cache := do
  let source ←
    MonadExcept.ofExcept (DocumentSource.select source.definitions source.snapshot config.cache)
  source.load

/-- The records in the progress file that is named, if any. -/
def loadProgress : Option String → ExceptT Error m Lookup
  | some path => Lookup.load path
  | none => return .empty

/-- The documents of a cache as responses are built from them. -/
def Cache.responses (cache : Cache) (config : Config) : ResponseBuilder :=
  ⟨some cache.store, config.sizing⟩

/-- A document on a line of its own. -/
def Report.ofDocument (doc : Bytes) : Report := { output := doc ++ [Byte.lineFeed] }

/-- Challenges in an envelope, or a single one by itself. -/
def ResponseBuilder.render (builder : ResponseBuilder) (ids : List String) (single : Bool)
    (lookup : Lookup) : Except Error Bytes :=
  if single then
    match ids with
    | [id] => builder.challenge id lookup
    | _ => .error (.argument .notOneChallenge)
  else builder.challenges ids lookup

/-- What a command shows. -/
def Command.execute (config : Config) : Command → ExceptT Error m Report
  | .render ids source progress single => do
    let cache ← source.load config
    let lookup ← loadProgress progress
    let doc ← MonadExcept.ofExcept ((cache.responses config).render ids single lookup)
    return .ofDocument doc
  | .goal id source progress => do
    let cache ← source.load config
    let lookup ← loadProgress progress
    let doc ← MonadExcept.ofExcept ((cache.responses config).goal id (lookup.get? id))
    return .ofDocument doc
  | .stats source format => do
    let cache ← source.load config
    return { output := cache.stats.print format }
  | .snapshot path definitions => do
    let some origin := definitions <|> config.cache.definitions | throw (.argument .noDefinitions)
    let cache ← (DocumentSource.definitions origin).load
    cache.save path
    return { notices := [.wrote cache.stats path] }

/-- The outcome of a run in a directory that carries out a command. -/
def Command.run (command : Command) (config? : Option String) (directory : String) : m Outcome := do
  let reading ← Config.resolve config? directory
  let notices := reading.unrecognized.map Notice.unrecognized
  match reading.result with
  | .error e => return { notices := notices, failure := some e }
  | .ok config =>
    match ← (command.execute config).run with
    | .error e => return { notices := notices, failure := some e }
    | .ok report => return { output := report.output, notices := notices ++ report.notices }

/-! ## The program -/

/-- How the program ends. -/
inductive Ending where
  /-- The argument list is refused, or asks for help or the version. -/
  | interrupted (i : Interruption)
  /-- No command was given. -/
  | idle
  | finished (o : Outcome)

/-- The exit code of the program. -/
def Ending.exitCode : Ending → UInt8
  | .interrupted i => i.exitCode
  | .idle => 0
  | .finished o => o.exitCode

/-- How the program ends that is given an argument list, in a directory, with logging off; the default
of the option `config` comes from the environment. -/
def run (configDefault : Option String) (args : List String) (directory : String) : m Ending :=
  match Arguments.read configDefault args with
  | .error i => return .interrupted i
  | .ok ⟨_, none⟩ => return .idle
  | .ok ⟨config?, some command⟩ => return .finished (← command.run config? directory)

end GoalProgress
