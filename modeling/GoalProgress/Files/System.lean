import GoalProgress.Files.Tree

/-!
# File systems

What the program asks of the files around it. The program is written for any file system; a tree of
files is one, and the files of the machine are another.

## Main definitions

* `FileSystem`: the operations.
* `FileSystem.replace`: put a file in place of another one at once.
-/
namespace GoalProgress.Files

/-- The operations on files that a program is made of. -/
class FileSystem (m : Type → Type) where
  /-- The content of a file. -/
  read : Path → m (Except Problem Bytes)
  /-- Whether a path leads to a file. -/
  isFile : Path → m Bool
  /-- Create the directories that a path names, unless they are there. -/
  createDirectories : Path → m (Except Problem Unit)
  /-- Write a file, in place of the one that was there. -/
  write : Path → Bytes → m (Except Problem Unit)
  /-- Move a file, in place of the one that was there. -/
  rename : Path → Path → m (Except Problem Unit)

/-- A computation on a tree of files that changes the tree unless it fails. -/
def FileTree.update (f : FileTree → Except Problem FileTree) :
    StateM FileTree (Except Problem Unit) :=
  fun t =>
    match f t with
    | .ok t => (.ok (), t)
    | .error problem => (.error problem, t)

instance : FileSystem (StateM FileTree) where
  read p := fun t => (t.read p, t)
  isFile p := fun t => (t.isFile p, t)
  createDirectories p := fun t => t.createDirectories p
  write p content := FileTree.update (·.write p content)
  rename source destination := FileTree.update (·.rename source destination)

namespace FileSystem

variable {m : Type → Type} [Monad m] [FileSystem m]

/-- The text of a file. -/
def readText (p : Path) : ExceptT Problem m String := do
  match Bytes.toString? (← ExceptT.mk (read p)) with
  | some s => return s
  | none => throw .notText

/-- Put a file at a path at once: the content is written to a file beside it, which is then moved.
Directories that the path names are created. -/
def replace (p : Path) (content : Bytes) : ExceptT Problem m Unit := do
  if let some directory := p.parent? then
    ExceptT.mk (createDirectories directory)
  let draft := p.withExtension "tmp"
  ExceptT.mk (write draft content)
  ExceptT.mk (rename draft p)

end FileSystem

end GoalProgress.Files
