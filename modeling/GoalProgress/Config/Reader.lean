import GoalProgress.Config
import GoalProgress.Error
import GoalProgress.Files.System
import GoalProgress.Toml.Reader

/-!
# Reading configurations

A configuration is read in three steps. First the version is looked at, so that a file for another
version is not judged by the rules of this one; then the keys that are not recognised are noted;
then the values are decoded.

## Main definitions

* `Config.parse`: the configuration in a text.
* `Config.resolve`: the configuration that is in force.
-/
namespace GoalProgress

/-- A key of a configuration file that is passed over. -/
structure UnrecognizedKey where
  path : String
  key : String
deriving DecidableEq, Repr

/-- What comes of reading a configuration. Keys that are not recognised are noted even if the
configuration is refused. -/
structure ConfigReading where
  unrecognized : List UnrecognizedKey
  result : Except Error Config

namespace Config

/-- The name of the configuration file. -/
def fileName : String := "goalsplice.toml"

/-- The version that a table names. -/
def version (t : Toml.Table) : Except ConfigFault Int :=
  match t.get? "version" with
  | none => .error .missingVersion
  | some v => (decodeVersion v).mapError fun m => .toml (some m)

/-- The table in a text, if it names the version that is supported. -/
def supportedTable (text : String) : Except ConfigFault Toml.Table := do
  let some t := Toml.parse? text | throw (.toml none)
  let n ← version t
  if n ≠ supportedVersion then throw (.unsupportedVersion n)
  return t

/-- The configuration in the text of the file at `path`. -/
def parse (text path : String) : ConfigReading :=
  let refuse := fun fault => Error.config fault (some path)
  match supportedTable text with
  | .error fault => ⟨[], .error (refuse fault)⟩
  | .ok t =>
    match Config.unrecognized t with
    | .error fault => ⟨[], .error (refuse (.toml (dateMismatch? fault)))⟩
    | .ok keys =>
      ⟨keys.map fun key => ⟨path, key⟩, (decode t).mapError fun m => refuse (.toml (some m))⟩

variable {m : Type → Type} [Monad m] [Files.FileSystem m]

/-- The configuration in the file at `path`. -/
def load (path : String) : m ConfigReading := do
  match ← (Files.FileSystem.readText (.ofString path)).run with
  | .ok text => return parse text path
  | .error problem => return ⟨[], .error (.io path problem)⟩

/-- The configuration that is in force: the one at a given path, or else the one in the directory,
or else the default. -/
def resolve (path? : Option String) (directory : String) : m ConfigReading := do
  match path? with
  | some path => load path
  | none =>
    let path := Files.Path.join directory fileName
    if ← Files.FileSystem.isFile (.ofString path) then load path
    else return ⟨[], .ok {}⟩

end Config

end GoalProgress
