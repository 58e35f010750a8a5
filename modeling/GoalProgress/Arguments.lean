/-!
# Command-line arguments

What the program can be asked to do, and in which ways an argument list can fail to say so.

## Main definitions

* `Arguments`: what an argument list asks for.
* `UsageError`: why an argument list is refused.
* `Interruption`: why no arguments result: they are refused, or ask for help or the version.
-/
namespace GoalProgress

/-- Where documents are to come from. -/
structure SourceArguments where
  definitions : Option String := none
  snapshot : Option String := none
deriving DecidableEq, Repr

/-- The forms in which statistics can be shown. -/
inductive StatsFormat where
  | text
  | json
deriving DecidableEq, Repr

namespace StatsFormat

/-- The name of a form. -/
def name : StatsFormat → String
  | .text => "text"
  | .json => "json"

/-- The form with a given name. -/
def ofName? (s : String) : Option StatsFormat := [text, json].find? (·.name == s)

end StatsFormat

/-- What the program is asked to do. -/
inductive Command where
  /-- Show challenges with the progress of a user, or a single one by itself. -/
  | render (ids : List String) (source : SourceArguments) (progress : Option String) (single : Bool)
  /-- Show one goal with the progress of a user. -/
  | goal (id : String) (source : SourceArguments) (progress : Option String)
  /-- Show how much the cache holds. -/
  | stats (source : SourceArguments) (format : StatsFormat)
  /-- Write a snapshot of definitions. -/
  | snapshot (path : String) (definitions : Option String)
deriving DecidableEq, Repr

/-- What an argument list asks for; without a command, nothing but a hint is shown. -/
structure Arguments where
  config : Option String := none
  command : Option Command := none
deriving DecidableEq, Repr

/-- Why an argument list is refused. -/
inductive UsageError where
  /-- An option is given twice, or together with one that excludes it. -/
  | conflict
  /-- The value of an option is missing or not admitted. -/
  | invalidValue
  | unknownArgument
  | invalidCommand
  | missingArgument
  /-- A value is given to an option that takes none. -/
  | tooManyValues
deriving DecidableEq, Repr

/-- Why no arguments result from an argument list. -/
inductive Interruption where
  | help
  | version
  | usage (e : UsageError)
deriving DecidableEq, Repr

/-- The exit code of a program that stops there. -/
def Interruption.exitCode : Interruption → UInt8
  | .help | .version => 0
  | .usage _ => 2

end GoalProgress
