/-!
# Failures of file operations
-/
namespace GoalProgress.Files

/-- Why a file could not be read, written or moved. -/
inductive Problem where
  | notFound
  | busy
  | alreadyExists
  | notDirectory
  | isDirectory
  /-- A name has more than 255 bytes, or a path more than 4095. -/
  | nameTooLong
  /-- A name in the path contains the character zero. -/
  | zeroInName
  /-- The file was to be read as text and is no UTF-8. -/
  | notText
  /-- Any other failure, in the words of the system. -/
  | other (text : String)
deriving DecidableEq, Repr

/-- The wording of a failure. -/
def Problem.message : Problem → String
  | .notFound => "No such file or directory (os error 2)"
  | .busy => "Device or resource busy (os error 16)"
  | .alreadyExists => "File exists (os error 17)"
  | .notDirectory => "Not a directory (os error 20)"
  | .isDirectory => "Is a directory (os error 21)"
  | .nameTooLong => "File name too long (os error 36)"
  | .zeroInName => "file name contained an unexpected NUL byte"
  | .notText => "stream did not contain valid UTF-8"
  | .other text => text

end GoalProgress.Files
