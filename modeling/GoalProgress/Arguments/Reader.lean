import GoalProgress.Arguments

/-!
# Reading command-line arguments

Arguments are read from left to right. Options may stand anywhere and have a long name, a letter, or
both; the value of an option follows it at once, after an equals sign, or as the next argument.
After `--` all arguments stand for themselves. The first argument that is neither an option nor a
value of one names the command, which has options and arguments of its own. A value is not judged
before the next option or argument begins, so that an unknown argument right after it is reported
first.

## Main definitions

* `Level`: the program or one of its commands, with the options and arguments that it takes.
* `Level.read`: the draft of the arguments of one command.
* `Arguments.read`: what an argument list asks for.
-/
namespace GoalProgress

/-- The options. -/
inductive Flag where
  | config
  | definitions
  | snapshot
  | progress
  | output
  | single
  | help
  | version
deriving DecidableEq, Repr

namespace Flag

/-- Every option. -/
def all : List Flag :=
  [.config, .definitions, .snapshot, .progress, .output, .single, .help, .version]

/-- The long name. -/
def name : Flag → String
  | .config => "config"
  | .definitions => "definitions"
  | .snapshot => "snapshot"
  | .progress => "progress"
  | .output => "output"
  | .single => "single"
  | .help => "help"
  | .version => "version"

/-- The letter, if there is one. -/
def letter? : Flag → Option Char
  | .config => some 'C'
  | .definitions => some 'd'
  | .progress => some 'p'
  | .output => some 'o'
  | .help => some 'h'
  | .version => some 'V'
  | .snapshot | .single => none

/-- Whether the option has a value. -/
def takesValue : Flag → Bool
  | .config | .definitions | .snapshot | .progress | .output => true
  | .single | .help | .version => false

/-- Whether a value is admitted: a path must not be empty, and a form of output has to exist. -/
def admits : Flag → String → Bool
  | .output, s => (StatsFormat.ofName? s).isSome
  | .config, s | .definitions, s | .snapshot, s | .progress, s => !s.isEmpty
  | .single, _ | .help, _ | .version, _ => true

end Flag

/-- The program itself, or one of its commands. -/
inductive Level where
  | program
  | render
  | goal
  | stats
  | snapshot
deriving DecidableEq, Repr

namespace Level

/-- The commands. -/
def commands : List Level := [.render, .goal, .stats, .snapshot]

/-- The name of a command. The program itself needs none. -/
def name? : Level → Option String
  | .program => none
  | .render => some "render"
  | .goal => some "goal"
  | .stats => some "stats"
  | .snapshot => some "snapshot"

/-- The command with a given name. -/
def ofName? (s : String) : Option Level := commands.find? (·.name? == some s)

/-- The name of the command that shows help. -/
def helpName : String := "help"

/-- The options that can be given. -/
def flags : Level → List Flag
  | .program => [.config, .help, .version]
  | .render => [.config, .definitions, .snapshot, .progress, .single, .help, .version]
  | .goal => [.config, .definitions, .snapshot, .progress, .help, .version]
  | .stats => [.config, .definitions, .snapshot, .output, .help, .version]
  | .snapshot => [.config, .definitions, .help, .version]

/-- Whether `n` arguments may stand for themselves. -/
def takes : Level → Nat → Bool
  | .render, _ => true
  | .goal, n | .snapshot, n => n ≤ 1
  | .program, n | .stats, n => n = 0

/-- Whether an argument that stands for itself is admitted: a path must not be empty. -/
def admits : Level → String → Bool
  | .snapshot, s => !s.isEmpty
  | _, _ => true

/-- The option with a given long name. -/
def flagNamed? (level : Level) (name : String) : Option Flag := level.flags.find? (·.name == name)

/-- The option with a given letter. -/
def flagLettered? (level : Level) (letter : Char) : Option Flag :=
  level.flags.find? (·.letter? == some letter)

end Level

/-- An option or argument that has not been judged yet. -/
inductive Pending where
  /-- An option, with its value if that has been given. -/
  | flag (f : Flag) (value : Option String)
  | argument (s : String)
deriving DecidableEq, Repr

/-- What has been read of the arguments of one level. -/
structure ArgumentDraft where
  /-- The options with their values; options that take none have the empty one. -/
  given : List (Flag × String) := []
  arguments : List String := []
  pending : Option Pending := none
  /-- Everything from here on stands for itself. -/
  literally : Bool := false
deriving DecidableEq, Repr

namespace ArgumentDraft

variable (d : ArgumentDraft)

/-- The value of an option. -/
def value? (f : Flag) : Option String := d.given.lookup f

/-- Whether an option has been given. -/
def has (f : Flag) : Bool := (d.value? f).isSome

/-- Whether the next argument is the value of an option, whatever it is, unless it looks like an
option. -/
def awaitsValue : Bool :=
  match d.pending with
  | some (.flag _ none) => true
  | _ => false

/-- The number of arguments that stand for themselves, the pending one included. -/
def count : Nat :=
  d.arguments.length + (match d.pending with | some (.argument _) => 1 | _ => 0)

/-- The draft with an option and its value, which must be admitted and the only one. -/
def give (f : Flag) (value : String) : Except UsageError ArgumentDraft :=
  if d.has f then .error .conflict
  else if f.admits value then .ok { d with given := d.given ++ [(f, value)] }
  else .error .invalidValue

/-- The draft after judging what is pending. -/
def settle (level : Level) : Except UsageError ArgumentDraft :=
  let settled := { d with pending := none }
  match d.pending with
  | none => .ok settled
  | some (.flag _ none) => .error .invalidValue
  | some (.flag f (some value)) => settled.give f value
  | some (.argument s) =>
    if level.admits s then .ok { settled with arguments := d.arguments ++ [s] }
    else .error .invalidValue

/-- The draft after an option without a value; help and the version are shown at once. -/
def raise (level : Level) (f : Flag) : Except Interruption ArgumentDraft :=
  match d.settle level with
  | .error e => .error (.usage e)
  | .ok d =>
    match f with
    | .help => .error .help
    | .version => .error .version
    | f => (d.give f "").mapError .usage

/-- The draft after an option that has a value, which may be given with it. -/
def accept (level : Level) (f : Flag) (value : Option String) :
    Except UsageError ArgumentDraft := do
  let d ← d.settle level
  match value with
  | some value => d.give f value
  | none => return { d with pending := some (.flag f none) }

/-- The draft after an argument `--name` or `--name=value`. -/
def readLong (level : Level) (name : String) (value : Option String) :
    Except Interruption ArgumentDraft :=
  match level.flagNamed? name, value with
  | none, _ => .error (.usage .unknownArgument)
  | some f, value =>
    if f.takesValue then (d.accept level f value).mapError .usage
    else if value.isSome then .error (.usage .tooManyValues)
    else d.raise level f

/-- The draft after the letters of an argument such as `-hV` or `-dvalue`. What follows the letter
of an option with a value is that value, an equals sign between them not counting. -/
def readLetters (level : Level) (letters : List Char) (d : ArgumentDraft) :
    Except Interruption ArgumentDraft :=
  match letters with
  | [] => .ok d
  | c :: rest =>
    match level.flagLettered? c with
    | none => .error (.usage .unknownArgument)
    | some f =>
      if f.takesValue then
        let value := match rest with
          | [] => none
          | '=' :: rest => some (String.ofList rest)
          | rest => some (String.ofList rest)
        (d.accept level f value).mapError .usage
      else
        match d.raise level f with
        | .error e => .error e
        | .ok d => readLetters level rest d

/-- The draft after an argument that stands for itself. -/
def readArgument (level : Level) (s : String) : Except UsageError ArgumentDraft :=
  if level.takes (d.count + 1) then do
    let d ← d.settle level
    return { d with pending := some (.argument s) }
  else .error (if level = .program then .invalidCommand else .unknownArgument)

/-- The draft after one more argument. -/
def read (level : Level) (d : ArgumentDraft) (s : String) : Except Interruption ArgumentDraft :=
  if d.literally then (d.readArgument level s).mapError .usage
  else
    match s.toList with
    | ['-', '-'] => .ok { d with literally := true }
    | '-' :: '-' :: body =>
      let name := body.takeWhile (· != '=')
      let value := if name.length < body.length then some (body.drop (name.length + 1)) else none
      d.readLong level (String.ofList name) (value.map String.ofList)
    | '-' :: c :: letters => readLetters level (c :: letters) d
    | _ =>
      match d.pending with
      | some (.flag f none) => .ok { d with pending := some (.flag f (some s)) }
      | _ => (d.readArgument level s).mapError .usage

end ArgumentDraft

namespace Level

/-- A finished draft: what is pending is judged, and if the option `config` has not been given, its
default is looked at, which has to be admitted. -/
def finish (level : Level) (configDefault : Option String) (d : ArgumentDraft) :
    Except UsageError ArgumentDraft := do
  let d ← d.settle level
  if let (false, some path) := (d.has .config, configDefault) then
    if !Flag.config.admits path then throw .invalidValue
  return d

/-- The draft of the arguments of one command. -/
def read (level : Level) (configDefault : Option String) (args : List String) :
    Except Interruption ArgumentDraft := do
  let d ← args.foldlM (ArgumentDraft.read level) {}
  (level.finish configDefault d).mapError .usage

end Level

namespace Command

/-- Where documents are to come from; two places at once are refused. -/
def source (d : ArgumentDraft) : Except UsageError SourceArguments :=
  if d.has .definitions && d.has .snapshot then .error .conflict
  else .ok ⟨d.value? .definitions, d.value? .snapshot⟩

/-- The only argument that stands for itself. -/
def onlyArgument (d : ArgumentDraft) : Except UsageError String :=
  match d.arguments with
  | s :: _ => .ok s
  | [] => .error .missingArgument

/-- The form of output that is asked for, text if none is. -/
def format (d : ArgumentDraft) : StatsFormat :=
  ((d.value? .output).bind StatsFormat.ofName?).getD .text

/-- The command of a level with a finished draft of its arguments. -/
def ofDraft (level : Level) (d : ArgumentDraft) : Except UsageError (Option Command) := do
  match level with
  | .program => return none
  | .render => return some (.render d.arguments (← source d) (d.value? .progress) (d.has .single))
  | .goal => do
    let source ← source d
    return some (.goal (← onlyArgument d) source (d.value? .progress))
  | .stats => return some (.stats (← source d) (format d))
  | .snapshot => return some (.snapshot (← onlyArgument d) (d.value? .definitions))

end Command

namespace Arguments

/-- What comes of asking for help: the names of commands lead to further help, but no command has
commands of its own. -/
def readHelp : List String → Interruption
  | [] => .help
  | [s] => if (Level.ofName? s).isSome || s == Level.helpName then .help else .usage .invalidCommand
  | _ => .usage .invalidCommand

/-- Arguments from a draft of the program's and from those of a command, whose own options go
first. -/
def ofDrafts (configDefault : Option String) (program command : ArgumentDraft)
    (c : Option Command) : Arguments where
  config := command.value? .config <|> program.value? .config <|> configDefault
  command := c

/-- What the rest of an argument list asks for, after a draft of the program's own arguments. -/
def readFrom (configDefault : Option String) (d : ArgumentDraft) :
    List String → Except Interruption Arguments
  | [] => do
    let d ← (Level.program.finish configDefault d).mapError .usage
    return ofDrafts configDefault d {} none
  | s :: rest =>
    if d.awaitsValue || d.literally then do
      readFrom configDefault (← nextDraft d s) rest
    else if s = Level.helpName then .error (readHelp rest)
    else
      match Level.ofName? s with
      | some level => do
        let own ← level.read configDefault rest
        let c ← (Command.ofDraft level own).mapError .usage
        let d ← (Level.program.finish configDefault d).mapError .usage
        return ofDrafts configDefault d own c
      | none => do readFrom configDefault (← nextDraft d s) rest
where
  /-- The draft after one more argument. After `--` a command is no command any more. -/
  nextDraft (d : ArgumentDraft) (s : String) : Except Interruption ArgumentDraft :=
    if d.literally && ((Level.ofName? s).isSome || s == Level.helpName) then
      .error (.usage .unknownArgument)
    else ArgumentDraft.read .program d s

/-- What an argument list asks for. A default may be known for the option `config`. -/
def read (configDefault : Option String) (args : List String) : Except Interruption Arguments :=
  readFrom configDefault {} args

end Arguments

end GoalProgress
