import GoalProgress.Bytes
import GoalProgress.Files.Path
import GoalProgress.Files.Problem
import Std.Data.ExtTreeMap

/-!
# Trees of files

A tree of files around a working directory, with the operations that programs have on it. Paths
start at the working directory, or at the root of the tree if they start with a slash. The
directories around the working directory are always there; where they lie below the root is not
known, so that no name leads back from them. There are no links. An operation fails only if the tree
does not allow it, and then changes nothing; what else may go wrong is a matter of the disk.

## Main definitions

* `FileTree`: files and directories by location.
* `FileTree.read`, `FileTree.write`, `FileTree.rename`, `FileTree.createDirectories`: the
  operations.
-/
namespace GoalProgress.Files

/-- What stands at a location. -/
inductive Entry where
  | directory
  | file (content : Bytes)
deriving DecidableEq, Repr

/-- A place in a tree: the names that lead there from the working directory, innermost first. The
outermost ones may be `..`, which lead out of it, or `/`, which leads to the root. -/
abbrev Location := List String

namespace Location

/-- The working directory. -/
def working : Location := []

/-- The root. -/
def root : Location := ["/"]

/-- Whether a name leads out of the working directory. -/
def leadsOut (name : String) : Bool := name == ".." || name == "/"

/-- Whether a location is the working directory, the root, or a directory around one of them. -/
def isAncestor (here : Location) : Bool := here.all leadsOut

/-- Whether a location is below the working directory. -/
def isBelow (here : Location) : Bool := !here.any leadsOut

/-- The directory that a location is in. The root is in itself. -/
def up : Location → Location
  | [] => [".."]
  | name :: outer =>
    if name = "/" then root
    else if name = ".." then ".." :: name :: outer
    else outer

end Location

/-- Files and directories by location, apart from the directories that are always there. -/
structure FileTree where
  entries : Std.ExtTreeMap Location Entry

namespace FileTree

/-- No files. -/
def empty : FileTree := ⟨∅⟩

variable (t : FileTree)

/-- What stands at a location. -/
def get? (here : Location) : Option Entry :=
  if here.isAncestor then some .directory else t.entries[here]?

/-- The content of the file at a location. -/
def file? (here : Location) : Option Bytes :=
  match t.get? here with
  | some (.file content) => some content
  | _ => none

/-- All files below the working directory. -/
def files : List (Location × Bytes) :=
  t.entries.toList.filterMap fun (here, e) =>
    match e with
    | .file content => if here.isBelow then some (here, content) else none
    | .directory => none

/-- The tree with an entry in place of the one that was there. -/
def put (here : Location) (e : Entry) : FileTree := ⟨t.entries.insert here e⟩

/-- The tree without an entry. -/
def remove (here : Location) : FileTree := ⟨t.entries.erase here⟩

theorem get?_of_isAncestor {here : Location} (h : here.isAncestor) :
    t.get? here = some .directory := by
  simp [get?, h]

theorem get?_put {here : Location} (h : ¬ here.isAncestor) (e : Entry) (there : Location) :
    (t.put here e).get? there = if here = there then some e else t.get? there := by
  by_cases eq : here = there
  · subst eq
    simp [get?, put, h]
  · simp [get?, put, Std.ExtTreeMap.getElem?_insert, eq]

theorem get?_remove {here : Location} (h : ¬ here.isAncestor) (there : Location) :
    (t.remove here).get? there = if here = there then none else t.get? there := by
  by_cases eq : here = there
  · subst eq
    simp [get?, remove, h]
  · simp [get?, remove, Std.ExtTreeMap.getElem?_erase, eq]

/-! ## Where paths lead -/

/-- Whether a name has more bytes than names may have. -/
def isTooLong (name : String) : Bool := 255 < name.utf8ByteSize

/-- The directory that names lead to, from a directory on. -/
def directoryFrom (here : Location) : List String → Except Problem Location
  | [] => .ok here
  | name :: names =>
    if name = "." then directoryFrom here names
    else if name = ".." then directoryFrom here.up names
    else if isTooLong name then .error .nameTooLong
    else
      match t.get? (name :: here) with
      | none => .error .notFound
      | some (.file _) => .error .notDirectory
      | some .directory => directoryFrom (name :: here) names

/-- What a path leads to: a directory, whatever the path says of its last name, or a name in a
directory, which need not be taken. -/
inductive Target where
  | directory (here : Location)
  | name (here : Location)

/-- Where a path starts. -/
def start (p : Path) : Location := if p.absolute then .root else .working

/-- Where a path leads, if every name but the last is a directory. -/
def target (p : Path) : Except Problem Target :=
  if p.names.any (·.toList.contains '\x00') then .error .zeroInName
  else if 4095 < p.toString.utf8ByteSize then .error .nameTooLong
  else
    match p.names.getLast? with
    | none => if p.absolute then .ok (.directory .root) else .error .notFound
    | some last =>
      if p.slashAtEnd || last == "." || last == ".." then
        (t.directoryFrom (start p) p.names).map .directory
      else do
        let here ← t.directoryFrom (start p) p.names.dropLast
        if isTooLong last then throw .nameTooLong
        return .name (last :: here)

/-! ## Operations -/

/-- The content of a file. -/
def read (p : Path) : Except Problem Bytes := do
  match ← t.target p with
  | .directory _ => throw .isDirectory
  | .name here =>
    match t.get? here with
    | none => throw .notFound
    | some .directory => throw .isDirectory
    | some (.file content) => return content

/-- Whether a path leads to a file. -/
def isFile (p : Path) : Bool := (t.read p).isOk

/-- The tree after writing a file, in place of the one that was there. -/
def write (p : Path) (content : Bytes) : Except Problem FileTree := do
  match ← t.target p with
  | .directory _ => throw .isDirectory
  | .name here =>
    match t.get? here with
    | some .directory => throw .isDirectory
    | _ => return t.put here (.file content)

/-- The tree after moving a file, in place of the one that was there. -/
def rename (source destination : Path) : Except Problem FileTree := do
  let content ← t.read source
  match ← t.target source, ← t.target { destination with slashAtEnd := false } with
  | .name origin, .name here =>
    if destination.slashAtEnd then throw .notDirectory
    else if origin = here then return t
    else match t.get? here with
      | some .directory => throw .isDirectory
      | _ => return (t.remove origin).put here (.file content)
  | _, _ => throw .busy

/-- The tree with a directory at a name that is not taken. -/
def createDirectory (p : Path) : Except Problem FileTree := do
  match ← t.target p with
  | .directory _ => throw .alreadyExists
  | .name here =>
    match t.get? here with
    | some _ => throw .alreadyExists
    | none => return t.put here .directory

/-- Whether a path leads to a directory. -/
def isDirectory (p : Path) : Bool := (t.target { p with slashAtEnd := true }).isOk

/-- The tree with a directory at a path, where one may stand already. -/
def ensureDirectory (p : Path) : Except Problem FileTree :=
  match t.createDirectory p with
  | .ok t => .ok t
  | .error problem => if t.isDirectory p then .ok t else .error problem

/-- The tree with directories at all the names that lead to a location, which are given innermost
first, and the problem met. Outer directories are created if the inner one has no place to stand. -/
def createDirectoriesFrom (absolute : Bool) :
    List String → FileTree → Except Problem Unit × FileTree
  | [], t => (.ok (), t)
  | name :: up, t =>
    let p : Path := ⟨absolute, (name :: up).reverse, false⟩
    match t.ensureDirectory p with
    | .ok t => (.ok (), t)
    | .error .notFound =>
      match createDirectoriesFrom absolute up t with
      | (.error problem, t) => (.error problem, t)
      | (.ok (), t) =>
        match t.ensureDirectory p with
        | .ok t => (.ok (), t)
        | .error problem => (.error problem, t)
    | .error problem => (.error problem, t)

/-- The tree with directories at all the names of a path, and the problem met. -/
def createDirectories (p : Path) : Except Problem Unit × FileTree :=
  createDirectoriesFrom p.absolute p.names.reverse t

end FileTree

end GoalProgress.Files
