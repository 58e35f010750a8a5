import GoalProgress.Files.System

/-!
# Disks on which operations break off

A tree of files refuses only what its entries do not allow. On a disk an operation may meet a mishap
as well: there is no room, or no permission. It then fails, either before it has done anything, or
part way. A write that breaks off has cut off the file that was there, and has written the first
bytes of the new one; directories that were to be created are there up to some name. A file is read
or moved as a whole or not at all.

## Main definitions

* `Mishap`: what an operation may meet.
* `Disk`: a tree of files, and the mishaps to come.
-/
namespace GoalProgress.Files

/-- What makes an operation fail that the files allow. -/
inductive Mishap where
  /-- The operation is refused and changes nothing. -/
  | refused (problem : Problem)
  /-- The operation breaks off when so many bytes are written or so many names are directories. -/
  | brokenOff (done : Nat) (problem : Problem)
deriving DecidableEq, Repr

/-- The failure that is reported. -/
def Mishap.problem : Mishap → Problem
  | .refused problem => problem
  | .brokenOff _ problem => problem

namespace FileTree

variable (t : FileTree) (p : Path)

/-- The tree after creating directories with a mishap, and the problem met. -/
def createDirectoriesWith : Mishap → Except Problem Unit × FileTree
  | .refused problem => (.error problem, t)
  | .brokenOff done problem =>
    (.error problem, (t.createDirectories { p with names := p.names.take done }).2)

/-- The tree after writing a file with a mishap, and the problem met. -/
def writeWith (content : Bytes) : Mishap → Except Problem Unit × FileTree
  | .refused problem => (.error problem, t)
  | .brokenOff done problem =>
    match t.write p (content.take done) with
    | .ok t => (.error problem, t)
    | .error problem => (.error problem, t)

end FileTree

/-- A tree of files, and the mishaps that the operations on it meet. -/
structure Disk where
  tree : FileTree
  /-- What the operations to come meet, one after the other. Those behind the last one meet
  nothing. -/
  mishaps : List (Option Mishap) := []

namespace Disk

/-- An operation on the files of a disk, by what it does without a mishap and with one. -/
def operate {α : Type} (smooth : StateM FileTree α) (spoiled : Mishap → StateM FileTree α) :
    StateM Disk α :=
  fun d =>
    let operation := d.mishaps.head?.join.elim smooth spoiled
    (operation.run d.tree).map id fun tree => ⟨tree, d.mishaps.tail⟩

instance : FileSystem (StateM Disk) where
  read p := operate (FileSystem.read p) fun mishap t => (.error mishap.problem, t)
  isFile p := operate (FileSystem.isFile p) fun _ t => (false, t)
  createDirectories p :=
    operate (FileSystem.createDirectories p) fun mishap t => t.createDirectoriesWith p mishap
  write p content :=
    operate (FileSystem.write p content) fun mishap t => t.writeWith p content mishap
  rename source destination :=
    operate (FileSystem.rename source destination) fun mishap t => (.error mishap.problem, t)

end Disk

end GoalProgress.Files
