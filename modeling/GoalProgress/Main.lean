import GoalProgress.Run

/-!
# The program

The command line of the program on the files of the machine. Standard output gets the response or
report, standard error everything that is said beside it.
-/
namespace GoalProgress.Main

open Files

/-- The number of an error, which the machine gives with either sign. -/
def errorNumber (code : UInt32) : Nat := code.toInt32.toInt.natAbs

/-- The failure that an error of the machine stands for. -/
def problem (e : IO.Error) : Problem :=
  match e with
  | .noFileOrDirectory .. => .notFound
  | .resourceBusy .. => .busy
  | .alreadyExists .. => .alreadyExists
  | .inappropriateType _ code _ => if errorNumber code = 21 then .isDirectory else .notDirectory
  | .invalidArgument _ code _ => if errorNumber code = 36 then .nameTooLong else .other (toString e)
  | e => .other (toString e)

/-- The result of an operation of the machine. -/
def attempt {α : Type} (action : IO α) : IO (Except Problem α) := do
  match ← action.toBaseIO with
  | .ok a => return .ok a
  | .error e => return .error (problem e)

instance : FileSystem IO where
  read p := attempt do return (← IO.FS.readBinFile p.toString).data.toList
  isFile p := do
    match ← attempt (IO.FS.readBinFile p.toString) with
    | .ok _ => return true
    | .error _ => return false
  createDirectories p := attempt (IO.FS.createDirAll p.toString)
  write p content := attempt (IO.FS.writeBinFile p.toString ⟨content.toArray⟩)
  rename source destination := attempt (IO.FS.rename source.toString destination.toString)

/-- What is shown to those who ask for help, or give no command. -/
def help : String :=
  "Render challenge responses with per-user goal progress\n\n" ++
    "Usage: goalsplice [OPTIONS] [COMMAND]\n\n" ++
    "Commands:\n" ++
    "  render    Render challenges with progress injected\n" ++
    "  goal      Render a single goal with progress injected\n" ++
    "  stats     Show document cache statistics\n" ++
    "  snapshot  Write a cache snapshot from challenge definitions\n" ++
    "  help      Print this message or the help of the given subcommand(s)\n\n" ++
    "Options:\n" ++
    "  -C, --config <CONFIG>  Use specific config file\n" ++
    "  -h, --help             Print help\n" ++
    "  -V, --version          Print version"

/-- The wording of a refused argument list. -/
def usageMessage : UsageError → String
  | .conflict => "the argument cannot be used with another one, or more than once"
  | .invalidValue => "a value is missing or invalid"
  | .unknownArgument => "unexpected argument found"
  | .invalidCommand => "unrecognized subcommand"
  | .missingArgument => "a required argument was not provided"
  | .tooManyValues => "unexpected value for an argument that takes none"

/-- Write an outcome to the standard streams. -/
def showOutcome (o : Outcome) : IO Unit := do
  let out ← IO.getStdout
  out.write ⟨o.output.toArray⟩
  out.flush
  for message in o.messages do
    IO.eprintln message

/-- Show how the program ends. -/
def showEnding : Ending → IO Unit
  | .interrupted .help | .idle => IO.println help
  | .interrupted .version => IO.println ("goalsplice " ++ Snapshot.currentWriter)
  | .interrupted (.usage e) => IO.eprintln ("error: " ++ usageMessage e)
  | .finished o => showOutcome o

end GoalProgress.Main

/-- One run of the program. -/
def main (args : List String) : IO UInt32 := do
  let ending ← GoalProgress.run (← IO.getEnv "GOALSPLICE_CONFIG") args (← IO.currentDir).toString
  GoalProgress.Main.showEnding ending
  return ending.exitCode.toUInt32
