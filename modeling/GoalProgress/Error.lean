import GoalProgress.Files.Problem
import GoalProgress.GoalId
import GoalProgress.Json.Problem

/-!
# Errors

Everything that can go wrong between the command line and the finished response, by its cause. The
wording is fixed in `Error.message`, the exit code of the program in `Error.exitCode`.

## Main definitions

* `Error`: the causes.
* `Error.message`: their wording.
* `Error.exitCode`: 1 if something asked for does not exist, 2 if the input has to be changed, 3
  otherwise.
-/
namespace GoalProgress

/-- Why the goals of a challenge document could not be delimited. -/
inductive GoalsFault where
  | missingOpening
  | missingClosing
  | other (reason : String)
deriving DecidableEq, Repr

/-- The wording of a fault in the goals array. -/
def GoalsFault.message : GoalsFault → String
  | .missingOpening => "missing opening bracket"
  | .missingClosing => "missing closing bracket"
  | .other reason => reason

/-- The members that are spliced into goals, and that a cached document must not have. -/
inductive ReservedKey where
  | progress
  | status
  | completedAt
  | claimedAt
deriving DecidableEq, Repr

namespace ReservedKey

/-- The name of a member. -/
def name : ReservedKey → String
  | .progress => "progress"
  | .status => "status"
  | .completedAt => "completedAt"
  | .claimedAt => "claimedAt"

/-- The four members, in the order in which they are spliced in. -/
def all : List ReservedKey := [.progress, .status, .completedAt, .claimedAt]

/-- The name with its quotes. -/
def literal (k : ReservedKey) : Bytes := Byte.quote :: (Bytes.ofString k.name ++ [Byte.quote])

end ReservedKey

/-- Why a document may not be cached. -/
inductive DocumentFault where
  | missingBrace
  | reservedKey (key : ReservedKey)
  | other (reason : String)
deriving DecidableEq, Repr

/-- The wording of a fault in a document. -/
def DocumentFault.message : DocumentFault → String
  | .missingBrace => "missing closing brace"
  | .reservedKey key => "reserved key \"" ++ key.name ++ "\" already present"
  | .other reason => reason

/-- Why a configuration or a set of definitions is refused. -/
inductive ConfigFault where
  /-- The text is no TOML, or holds a value of the wrong kind. -/
  | toml (mismatch : Option Mismatch)
  | missingVersion
  | unsupportedVersion (version : Int)
  | duplicateChallenge (id : String)
  | duplicateGoal (id challengeId : String)
  | other (text : String)

/-- The wording of a refused configuration or set of definitions. -/
def ConfigFault.message : ConfigFault → String
  | .toml none => "TOML parse error"
  | .toml (some m) => "TOML parse error: " ++ m.message .positional
  | .missingVersion => "missing required field: version"
  | .unsupportedVersion version =>
    "unsupported config version " ++ toString version ++
      " (supported: 1)\n  Upgrade goalsplice to use this config."
  | .duplicateChallenge id => "duplicate challenge id: " ++ id
  | .duplicateGoal id challengeId => "duplicate goal id: " ++ id ++ " (in " ++ challengeId ++ ")"
  | .other text => text

/-- Why the command line cannot be carried out as it stands. -/
inductive ArgumentFault where
  | noSource
  | noDefinitions
  | notOneChallenge
  | other (text : String)
deriving DecidableEq, Repr

/-- The wording of a command line that cannot be carried out. -/
def ArgumentFault.message : ArgumentFault → String
  | .noSource =>
    "no document source: pass --definitions or --snapshot, or set [cache] in goalsplice.toml"
  | .noDefinitions =>
    "no definitions: pass --definitions or set cache.definitions in goalsplice.toml"
  | .notOneChallenge => "--single takes exactly one challenge ID"
  | .other text => text

/-- Why the bytes of a snapshot cannot be decoded. -/
inductive DecodeProblem where
  | endOfBuffer
  | badVarint
  | badUtf8
deriving DecidableEq, Repr

/-- The wording of a decoding problem. -/
def DecodeProblem.message : DecodeProblem → String
  | .endOfBuffer => "Hit the end of buffer, expected more data"
  | .badVarint => "Found a varint that didn't terminate. Is the usize too big for this platform?"
  | .badUtf8 => "Tried to parse invalid utf-8"

/-- Why a snapshot could not be read or written. -/
inductive SnapshotFault where
  | io (problem : Files.Problem)
  | decode (problem : DecodeProblem)
  | version (found : Nat)
  | writer (found : String)
  | other (text : String)
deriving DecidableEq, Repr

/-- The wording of a snapshot that could not be read or written. -/
def SnapshotFault.message : SnapshotFault → String
  | .io problem => "io error: " ++ problem.message
  | .decode problem => "serialization error: " ++ problem.message
  | .version found => "snapshot version mismatch (found " ++ toString found ++ ", expected 1)"
  | .writer found => "snapshot written by goalsplice " ++ found
  | .other text => text

/-- What went wrong. -/
inductive Error where
  | cacheUnavailable
  | challengeNotFound (id : String)
  | goalNotFound (id : String)
  | malformedGoals (fault : GoalsFault)
  | goalIdExtraction (ordinal : Nat) (cause : GoalIdError)
  | invalidDocument (id : String) (fault : DocumentFault)
  | config (fault : ConfigFault) (path : Option String)
  | argument (fault : ArgumentFault)
  | io (path : String) (problem : Files.Problem)
  | json (path : String) (problem : Json.Problem)
  | snapshot (fault : SnapshotFault)
  | internal (text : String)

namespace Error

/-- The wording of an error. -/
def message : Error → String
  | .cacheUnavailable => "document cache unavailable"
  | .challengeNotFound id => "challenge not found: " ++ id
  | .goalNotFound id => "goal not found: " ++ id
  | .malformedGoals fault => "malformed goals array: " ++ fault.message
  | .goalIdExtraction ordinal cause =>
    "goal #" ++ toString ordinal ++ ": failed to extract goal id: " ++ cause.message
  | .invalidDocument id fault => "invalid document " ++ id ++ ": " ++ fault.message
  | .config fault _ => "config error: " ++ fault.message
  | .argument fault => "argument error: " ++ fault.message
  | .io path problem => "io error: " ++ path ++ ": " ++ problem.message
  | .json path problem => "json error: " ++ path ++ ": " ++ problem.message
  | .snapshot fault => "snapshot error: " ++ fault.message
  | .internal text => "internal error: " ++ text

/-- The exit code of the program that ends with an error. -/
def exitCode : Error → UInt8
  | .challengeNotFound _ | .goalNotFound _ => 1
  | .config .. | .argument _ | .json .. | .invalidDocument .. => 2
  | .cacheUnavailable | .malformedGoals _ | .goalIdExtraction .. | .io .. | .snapshot _
  | .internal _ => 3

end Error

end GoalProgress
