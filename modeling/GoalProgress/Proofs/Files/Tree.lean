import GoalProgress.Files.System
import GoalProgress.Proofs.Program

/-!
# A file that is put in place can be read

Writing and moving files keeps all directories, so a path leads where it led before. A file that is
written beside its place and then moved there has the content that was written, whatever stood at
either place.

## Main definitions

* `FileTree.Keeps`: a tree with all directories of another one.
* `FileTree.withParents`: a tree with the directories that a file needs.
-/
namespace GoalProgress.Files

namespace FileTree

variable {t t' t'' : FileTree}

/-! ## Directories that stay -/

/-- All directories of the first tree are in the second one. -/
def Keeps (t t' : FileTree) : Prop :=
  ∀ here, t.get? here = some .directory → t'.get? here = some .directory

theorem Keeps.trans (h : t.Keeps t') (h' : t'.Keeps t'') : t.Keeps t'' :=
  fun here hhere => h' here (h here hhere)

/-- What is no directory is none of those that are always there. -/
theorem not_isAncestor {here : Location} (h : t.get? here ≠ some .directory) :
    ¬ here.isAncestor := fun hhere => h (get?_of_isAncestor t hhere)

theorem keeps_put {here : Location} (h : t.get? here ≠ some .directory) (e : Entry) :
    t.Keeps (t.put here e) := by
  intro there hthere
  have hne : here ≠ there := by
    rintro rfl
    exact h hthere
  rw [get?_put t (not_isAncestor h), if_neg hne, hthere]

theorem keeps_remove {here : Location} (h : t.get? here ≠ some .directory) :
    t.Keeps (t.remove here) := by
  intro there hthere
  have hne : here ≠ there := by
    rintro rfl
    exact h hthere
  rw [get?_remove t (not_isAncestor h), if_neg hne, hthere]

theorem Keeps.directoryFrom (h : t.Keeps t') {here there : Location} {names : List String}
    (hthere : t.directoryFrom here names = .ok there) :
    t'.directoryFrom here names = .ok there := by
  induction names generalizing here with
  | nil => exact hthere
  | cons name names ih =>
    rw [FileTree.directoryFrom] at hthere ⊢
    by_cases hdot : name = "."
    · rw [if_pos hdot] at hthere ⊢
      exact ih hthere
    by_cases hdots : name = ".."
    · rw [if_neg hdot, if_pos hdots] at hthere ⊢
      exact ih hthere
    by_cases hlong : isTooLong name = true
    · rw [if_neg hdot, if_neg hdots, if_pos hlong] at hthere
      cases hthere
    rw [if_neg hdot, if_neg hdots, if_neg hlong] at hthere ⊢
    split at hthere
    · cases hthere
    · cases hthere
    · rw [h _ ‹_›]
      exact ih hthere

/-- What names lead to is the same in both trees, unless they lead nowhere in the first one. -/
theorem Keeps.directoryFrom_eq (h : t.Keeps t') (here : Location) (names : List String) :
    (∃ problem, t.directoryFrom here names = .error problem) ∨
      t'.directoryFrom here names = t.directoryFrom here names := by
  cases hthere : t.directoryFrom here names with
  | error problem => exact .inl ⟨problem, rfl⟩
  | ok there => exact .inr (h.directoryFrom hthere)

/-- **A path leads where it led**, as long as no directory goes away. -/
theorem Keeps.target (h : t.Keeps t') {p : Path} {goal : Target} (hgoal : t.target p = .ok goal) :
    t'.target p = .ok goal := by
  rw [FileTree.target] at hgoal ⊢
  by_cases hzero : p.names.any (·.toList.contains '\x00') = true
  · rw [if_pos hzero] at hgoal
    cases hgoal
  by_cases hlong : 4095 < p.toString.utf8ByteSize
  · rw [if_neg hzero, if_pos hlong] at hgoal
    cases hgoal
  rw [if_neg hzero, if_neg hlong] at hgoal ⊢
  cases hlast : p.names.getLast? with
  | none =>
    rw [hlast] at hgoal
    exact hgoal
  | some last =>
    simp only [hlast] at hgoal ⊢
    by_cases hdirectory : (p.slashAtEnd || last == "." || last == "..") = true
    · rw [if_pos hdirectory] at hgoal ⊢
      rcases h.directoryFrom_eq (start p) p.names with ⟨problem, hfrom⟩ | hfrom
      · rw [hfrom] at hgoal
        cases hgoal
      · rwa [hfrom]
    · rw [if_neg hdirectory] at hgoal ⊢
      rcases h.directoryFrom_eq (start p) p.names.dropLast with ⟨problem, hfrom⟩ | hfrom
      · rw [hfrom] at hgoal
        cases hgoal
      · rwa [hfrom]

/-! ## Operations -/

theorem read_eq_ok_iff {p : Path} {content : Bytes} :
    t.read p = .ok content ↔
      ∃ here, t.target p = .ok (.name here) ∧ t.get? here = some (.file content) := by
  rw [read]
  cases t.target p with
  | error problem => simp [bind, Except.bind]
  | ok goal =>
    cases goal with
    | directory here => simp [bind, Except.bind, throw, throwThe, MonadExceptOf.throw]
    | name here =>
      cases h : t.get? here with
      | none => simp [bind, Except.bind, throw, throwThe, MonadExceptOf.throw, h]
      | some e =>
        cases e <;>
          simp [bind, Except.bind, throw, throwThe, MonadExceptOf.throw, pure, Except.pure, h]

theorem write_eq_ok_iff {p : Path} {content : Bytes} :
    t.write p content = .ok t' ↔
      ∃ here, t.target p = .ok (.name here) ∧ t.get? here ≠ some .directory ∧
        t' = t.put here (.file content) := by
  rw [write]
  cases t.target p with
  | error problem => simp [bind, Except.bind]
  | ok goal =>
    cases goal with
    | directory here => simp [bind, Except.bind, throw, throwThe, MonadExceptOf.throw]
    | name here =>
      cases h : t.get? here with
      | none => simp [bind, Except.bind, pure, Except.pure, h, eq_comm]
      | some e =>
        cases e <;>
          simp [bind, Except.bind, throw, throwThe, MonadExceptOf.throw, pure, Except.pure, h,
            eq_comm]

/-- A file that was written can be read. -/
theorem read_of_write {p : Path} {content : Bytes} (h : t.write p content = .ok t') :
    t'.read p = .ok content := by
  obtain ⟨here, htarget, hhere, rfl⟩ := write_eq_ok_iff.1 h
  refine read_eq_ok_iff.2 ⟨here, (keeps_put hhere _).target htarget, ?_⟩
  rw [get?_put t (not_isAncestor hhere), if_pos rfl]

/-- A file that is moved comes to stand at a name where no directory is. -/
theorem exists_of_rename {source destination : Path} (h : t.rename source destination = .ok t') :
    ∃ content origin here, t.target source = .ok (.name origin) ∧
      t.get? origin = some (.file content) ∧ t.target destination = .ok (.name here) ∧
      (origin = here ∧ t' = t ∨
        t.get? here ≠ some .directory ∧ origin ≠ here ∧
          t' = (t.remove origin).put here (.file content)) := by
  rw [rename] at h
  cases hsource : t.read source with
  | error problem =>
    rw [hsource] at h
    cases h
  | ok content =>
    obtain ⟨origin, horigin, hcontent⟩ := read_eq_ok_iff.1 hsource
    rw [hsource] at h
    simp only [horigin, bind, Except.bind] at h
    cases htarget : t.target { destination with slashAtEnd := false } with
    | error problem =>
      rw [htarget] at h
      cases h
    | ok goal =>
      rw [htarget] at h
      cases goal with
      | directory here => cases h
      | name here =>
        cases hslash : destination.slashAtEnd with
        | true =>
          rw [hslash] at h
          cases h
        | false =>
          have hplace : { destination with slashAtEnd := false } = destination := by rw [← hslash]
          rw [hplace] at htarget
          simp only [hslash, Bool.false_eq_true, if_false] at h
          refine ⟨content, origin, here, horigin, hcontent, htarget, ?_⟩
          by_cases hsame : origin = here
          · rw [if_pos hsame] at h
            cases h
            exact .inl ⟨hsame, rfl⟩
          · rw [if_neg hsame] at h
            split at h
            · cases h
            · rename_i hhere
              cases h
              exact .inr ⟨hhere, hsame, rfl⟩

/-- No directory is where a file is. -/
theorem ne_directory_of_file {here : Location} {content : Bytes}
    (h : t.get? here = some (.file content)) : t.get? here ≠ some .directory := by
  rw [h]
  exact nofun

section Move

variable {origin here : Location}

theorem get?_remove_ne_directory (horigin : t.get? origin ≠ some .directory)
    (hhere : t.get? here ≠ some .directory) (hne : origin ≠ here) :
    (t.remove origin).get? here ≠ some .directory := by
  rwa [get?_remove t (not_isAncestor horigin), if_neg hne]

theorem get?_move (horigin : t.get? origin ≠ some .directory)
    (hhere : t.get? here ≠ some .directory) (hne : origin ≠ here) (e : Entry) (there : Location) :
    ((t.remove origin).put here e).get? there =
      if here = there then some e else if origin = there then none else t.get? there := by
  rw [get?_put _ (not_isAncestor (get?_remove_ne_directory horigin hhere hne)),
    get?_remove t (not_isAncestor horigin)]

theorem keeps_move (horigin : t.get? origin ≠ some .directory)
    (hhere : t.get? here ≠ some .directory) (hne : origin ≠ here) (e : Entry) :
    t.Keeps ((t.remove origin).put here e) :=
  (keeps_remove horigin).trans (keeps_put (get?_remove_ne_directory horigin hhere hne) e)

end Move

/-- A file that was moved can be read where it stands now. -/
theorem read_of_rename {source destination : Path} {content : Bytes}
    (hsource : t.read source = .ok content) (h : t.rename source destination = .ok t') :
    t'.read destination = .ok content := by
  obtain ⟨found, origin, here, horigin, hfound, htarget, hmove⟩ := exists_of_rename h
  obtain ⟨there, hthere, hfile⟩ := read_eq_ok_iff.1 hsource
  obtain rfl : there = origin := by
    rw [horigin] at hthere
    cases hthere
    rfl
  obtain rfl : found = content := by
    rw [hfound] at hfile
    cases hfile
    rfl
  rcases hmove with ⟨rfl, rfl⟩ | ⟨hhere, hne, rfl⟩
  · exact read_eq_ok_iff.2 ⟨there, htarget, hfound⟩
  · have horigin' := ne_directory_of_file hfound
    refine read_eq_ok_iff.2 ⟨here, (keeps_move horigin' hhere hne _).target htarget, ?_⟩
    rw [get?_move horigin' hhere hne, if_pos rfl]

end FileTree

/-! ## Putting a file in place -/

theorem FileTree.update_eq_ok_iff (f : FileTree → Except Problem FileTree) (t t' : FileTree) :
    FileTree.update f t = (.ok (), t') ↔ f t = .ok t' := by
  rw [update]
  cases f t with
  | error problem => exact iff_of_false nofun nofun
  | ok new => exact Prod.ext_iff.trans (by simp)

/-- The tree with the directories around the last name of a path, and the problem met. -/
def FileTree.withParents (t : FileTree) (p : Path) : Except Problem Unit × FileTree :=
  match p.parent? with
  | none => (.ok (), t)
  | some directory => t.createDirectories directory

namespace FileSystem

section Steps

variable {σ : Type} [FileSystem (StateM σ)]

/-- The first step of putting a file in place: the directories around it. -/
def makeParents (p : Path) : StateM σ (Except Problem Unit) :=
  match p.parent? with
  | none => pure (.ok ())
  | some directory => createDirectories directory

/-- Putting a file in place ends with the directories, with the write beside its place, or with the
move. -/
theorem run_replace_eq (p : Path) (content : Bytes) (s : σ) :
    (replace p content : ExceptT Problem (StateM σ) Unit).run.run s =
      match (makeParents p : StateM σ _).run s with
      | (.error problem, left) => (.error problem, left)
      | (.ok _, left) =>
        match (write (p.withExtension "tmp") content : StateM σ _).run left with
        | (.error problem, left) => (.error problem, left)
        | (.ok _, left) => (rename (p.withExtension "tmp") p : StateM σ _).run left := by
  have hrun (step : StateM σ (Except Problem Unit)) (s : σ) :
      ((ExceptT.mk step : ExceptT Problem (StateM σ) Unit).run.run s : _ × σ) = step.run s := rfl
  have hmove (placed : σ) :
      (do
        ExceptT.mk (write (p.withExtension "tmp") content)
        ExceptT.mk (rename (p.withExtension "tmp") p) :
          ExceptT Problem (StateM σ) Unit).run.run placed =
        match (write (p.withExtension "tmp") content : StateM σ _).run placed with
        | (.error problem, left) => (.error problem, left)
        | (.ok _, left) => (rename (p.withExtension "tmp") p : StateM σ _).run left := by
    rw [run_bind, hrun]
    obtain ⟨problem | _, left⟩ :=
      (write (p.withExtension "tmp") content : StateM σ (Except Problem Unit)).run placed <;> rfl
  rw [replace, makeParents]
  cases p.parent? with
  | none => exact hmove s
  | some directory =>
    simp only
    rw [run_bind, hrun]
    obtain ⟨problem | _, placed⟩ :=
      (createDirectories directory : StateM σ (Except Problem Unit)).run s
    · rfl
    · exact hmove placed

end Steps

theorem run_replace (p : Path) (content : Bytes) (t : FileTree) :
    (replace p content : ExceptT Problem (StateM FileTree) Unit).run.run t =
      match t.withParents p with
      | (.error problem, placed) => (.error problem, placed)
      | (.ok _, placed) =>
        match placed.write (p.withExtension "tmp") content with
        | .error problem => (.error problem, placed)
        | .ok written => FileTree.update (·.rename (p.withExtension "tmp") p) written := by
  have hparents : (makeParents p : StateM FileTree _).run t = t.withParents p := by
    rw [makeParents, FileTree.withParents]
    cases p.parent? <;> rfl
  rw [run_replace_eq, hparents]
  obtain ⟨problem | _, placed⟩ := t.withParents p
  · rfl
  · have hwrite : (write (p.withExtension "tmp") content : StateM FileTree _).run placed =
        FileTree.update (·.write (p.withExtension "tmp") content) placed := rfl
    simp only [hwrite, FileTree.update]
    cases placed.write (p.withExtension "tmp") content <;> rfl

variable {p : Path} {content : Bytes} {t t' : FileTree}

/-- A file is put in place by a write and a move, after directories have been created. -/
theorem exists_of_replace
    (h : (replace p content : ExceptT Problem (StateM FileTree) Unit).run.run t = (.ok (), t')) :
    ∃ written, (t.withParents p).2.write (p.withExtension "tmp") content = .ok written ∧
      written.rename (p.withExtension "tmp") p = .ok t' := by
  rw [run_replace] at h
  rcases hparents : t.withParents p with ⟨_ | _, placed⟩
  · rw [hparents] at h
    cases h
  · rw [hparents] at h
    cases hwrite : placed.write (p.withExtension "tmp") content with
    | error problem =>
      simp only [hwrite] at h
      cases h
    | ok written =>
      simp only [hwrite] at h
      exact ⟨written, rfl, (FileTree.update_eq_ok_iff _ _ _).1 h⟩

/-- **A file that was put in place can be read**, with the content that was asked for. -/
theorem read_of_replace
    (h : (replace p content : ExceptT Problem (StateM FileTree) Unit).run.run t = (.ok (), t')) :
    t'.read p = .ok content := by
  obtain ⟨_, hwrite, hrename⟩ := exists_of_replace h
  exact FileTree.read_of_rename (FileTree.read_of_write hwrite) hrename

end FileSystem

end GoalProgress.Files
