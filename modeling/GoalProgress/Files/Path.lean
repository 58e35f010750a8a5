/-!
# Paths

A path is a list of names with slashes between them. The name `.` stays where it is, `..` goes one
directory up, and a slash at the end says that the path has to lead to a directory.

## Main definitions

* `Path.ofString`, `Path.toString`: between a path and its text.
* `Path.parent?`: the directory that the last name is in.
* `Path.withExtension`: the path with another extension.
* `Path.join`: the text of a path to a file in a directory.
-/
namespace GoalProgress.Files

/-- A path, by the names between its slashes. -/
structure Path where
  /-- The path starts with a slash. -/
  absolute : Bool
  names : List String
  /-- The path ends with a slash. -/
  slashAtEnd : Bool
deriving DecidableEq, Repr

namespace Path

/-- The path that a text denotes. Slashes count once, however many stand together. -/
def ofString (s : String) : Path where
  absolute := s.toList.head? == some '/'
  names := ((s.toList.splitOn '/').filter (!·.isEmpty)).map String.ofList
  slashAtEnd := s.toList.getLast? == some '/'

variable (p : Path)

/-- The text of a path. -/
def toString : String :=
  (if p.absolute then "/" else "") ++ "/".intercalate p.names ++
    (if p.slashAtEnd && !p.names.isEmpty then "/" else "")

/-- The names that lead somewhere, and `.` only at the start of a path that has no slash there. -/
def components : List String :=
  match p.names with
  | [] => []
  | first :: rest =>
    let rest := rest.filter (· != ".")
    if p.absolute && first == "." then rest else first :: rest

/-- The directory that the last name is in, unless that is where the path starts. -/
def parent? : Option Path :=
  match p.components.dropLast with
  | [] => none
  | names => some { p with names := names, slashAtEnd := false }

/-- A name up to its last point, unless it starts with that point. -/
def stem (name : String) : String :=
  match (name.toList.splitOn '.').dropLast with
  | [] => name
  | [[]] => name
  | parts => String.ofList (['.'].intercalate parts)

/-- Whether nothing follows the last name, no slash and no `.` either. -/
def endsInName : Bool := !p.slashAtEnd && p.names.getLast? != some "."

/-- The path whose last name has the extension `extension` in place of the one it had. The old one
is cut off up to its point before the new one is put there; if this leaves `..` at the end of the
path, it is no name any more and gets no extension. A path without a name at its end stays as it
is. -/
def withExtension (extension : String) : Path :=
  match p.components.getLast? with
  | none => p
  | some name =>
    if name = "." ∨ name = ".." then p
    else if stem name = "." ∧ p.endsInName then { p with names := p.components.dropLast ++ [".."] }
    else
      { p with
        names := p.components.dropLast ++ [stem name ++ "." ++ extension]
        slashAtEnd := false }

/-- The text of the path to the file `name` in a directory. -/
def join (directory name : String) : String :=
  if directory.isEmpty || directory.toList.getLast? == some '/' then directory ++ name
  else directory ++ "/" ++ name

end Path

end GoalProgress.Files
