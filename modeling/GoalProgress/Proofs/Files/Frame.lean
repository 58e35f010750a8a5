import GoalProgress.Proofs.Files.Tree

/-!
# Putting a file in place leaves other files alone

A file that is put in place takes up two places: the one where it stands in the end, and the one
beside it where it is written first. Directories are created where nothing stands. So a file that
can be read at neither of the two places is read afterwards as it was before.

## Main definitions

* `FileTree.Extends`: a tree in which everything stands that stands in another one.
-/
namespace GoalProgress.Files

namespace FileTree

variable {t t' t'' : FileTree}

/-! ## Directories that are added -/

section Directories

variable {R : FileTree → FileTree → Prop} (hrefl : ∀ t, R t t)
  (htrans : ∀ {t t' t''}, R t t' → R t' t'' → R t t'')
  (hput : ∀ {t here}, t.get? here = none → R t (t.put here .directory))

include hput in
theorem rel_of_createDirectory {p : Path} (h : t.createDirectory p = .ok t') : R t t' := by
  rw [createDirectory] at h
  cases htarget : t.target p with
  | error problem =>
    rw [htarget] at h
    cases h
  | ok goal =>
    rw [htarget] at h
    cases goal with
    | directory here => cases h
    | name here =>
      simp only [bind, Except.bind] at h
      split at h
      · cases h
      · rename_i hfree
        cases h
        exact hput hfree

include hrefl hput in
theorem rel_of_ensureDirectory {p : Path} (h : t.ensureDirectory p = .ok t') : R t t' := by
  rw [ensureDirectory] at h
  split at h
  · rename_i hcreate
    cases h
    exact rel_of_createDirectory hput hcreate
  · split at h
    · cases h
      exact hrefl t
    · cases h

include hrefl htrans hput

theorem rel_createDirectoriesFrom (absolute : Bool) (names : List String) (t : FileTree) :
    R t (createDirectoriesFrom absolute names t).2 := by
  induction names with
  | nil => exact hrefl t
  | cons name up ih =>
    rw [createDirectoriesFrom]
    split
    · exact rel_of_ensureDirectory hrefl hput ‹_›
    · cases houter : createDirectoriesFrom absolute up t with
      | mk result outer =>
        rw [houter] at ih
        cases result with
        | error problem => exact ih
        | ok _ =>
          simp only
          split
          · exact htrans ih (rel_of_ensureDirectory hrefl hput ‹_›)
          · exact ih
    · exact hrefl t

/-- Whatever holds of adding a directory where nothing stands, and of doing nothing and of doing one
thing after the other, holds of creating the directories for a file, even if this fails half way. -/
theorem rel_withParents (t : FileTree) (p : Path) : R t (t.withParents p).2 := by
  rw [withParents]
  cases p.parent? with
  | none => exact hrefl t
  | some directory =>
    exact rel_createDirectoriesFrom hrefl htrans hput directory.absolute directory.names.reverse t

end Directories

/-- Everything that stands in the first tree stands in the second one. -/
def Extends (t t' : FileTree) : Prop := ∀ here e, t.get? here = some e → t'.get? here = some e

theorem Extends.refl (t : FileTree) : t.Extends t := fun _ _ h => h

theorem Extends.trans (h : t.Extends t') (h' : t'.Extends t'') : t.Extends t'' :=
  fun here e hhere => h' here e (h here e hhere)

theorem Extends.keeps (h : t.Extends t') : t.Keeps t' := fun here hhere => h here _ hhere

theorem Extends.read (h : t.Extends t') {p : Path} {content : Bytes}
    (hread : t.read p = .ok content) : t'.read p = .ok content := by
  obtain ⟨here, htarget, hhere⟩ := read_eq_ok_iff.1 hread
  exact read_eq_ok_iff.2 ⟨here, h.keeps.target htarget, h here _ hhere⟩

theorem extends_put {here : Location} (h : t.get? here = none) (e : Entry) :
    t.Extends (t.put here e) := by
  intro there found hthere
  have hne : here ≠ there := by
    rintro rfl
    rw [h] at hthere
    cases hthere
  have hfree : ¬ here.isAncestor := not_isAncestor (by rw [h]; exact nofun)
  rw [get?_put t hfree, if_neg hne, hthere]

/-- Creating directories takes nothing away, even if it fails half way. -/
theorem extends_withParents (t : FileTree) (p : Path) : t.Extends (t.withParents p).2 :=
  rel_withParents .refl .trans (fun h => extends_put h .directory) t p

/-! ## Files that stay -/

theorem keeps_of_write {p : Path} {content : Bytes} (h : t.write p content = .ok t') :
    t.Keeps t' := by
  obtain ⟨here, _, hhere, rfl⟩ := write_eq_ok_iff.1 h
  exact keeps_put hhere _

theorem keeps_of_rename {source destination : Path} (h : t.rename source destination = .ok t') :
    t.Keeps t' := by
  obtain ⟨content, origin, here, _, horigin, _, hmove⟩ := exists_of_rename h
  rcases hmove with ⟨_, rfl⟩ | ⟨hhere, hne, rfl⟩
  · exact fun _ hthere => hthere
  · exact keeps_move (ne_directory_of_file horigin) hhere hne _

variable {q : Path} {file : Bytes}

/-- Paths that lead to different places in the end have always led to different places. -/
theorem Keeps.ne_of_target_ne (h : t.Keeps t') {p : Path} {here there : Location}
    (hp : t.target p = .ok (.name here)) (hq : t.target q = .ok (.name there))
    (hne : t'.target p ≠ t'.target q) : here ≠ there := by
  rintro rfl
  rw [h.target hp, h.target hq] at hne
  exact hne rfl

/-- Writing a file leaves a file at another place alone. -/
theorem read_of_write_of_ne {p : Path} {content : Bytes} (h : t.write p content = .ok t')
    (hne : t'.target p ≠ t'.target q) (hq : t.read q = .ok file) : t'.read q = .ok file := by
  have hkeeps := keeps_of_write h
  obtain ⟨here, hp, hhere, rfl⟩ := write_eq_ok_iff.1 h
  obtain ⟨there, htarget, hfile⟩ := read_eq_ok_iff.1 hq
  refine read_eq_ok_iff.2 ⟨there, hkeeps.target htarget, ?_⟩
  rw [get?_put t (not_isAncestor hhere), if_neg (hkeeps.ne_of_target_ne hp htarget hne), hfile]

/-- Moving a file leaves a file at a third place alone. -/
theorem read_of_rename_of_ne {source destination : Path}
    (h : t.rename source destination = .ok t') (hsource : t'.target source ≠ t'.target q)
    (hdestination : t'.target destination ≠ t'.target q) (hq : t.read q = .ok file) :
    t'.read q = .ok file := by
  have hkeeps := keeps_of_rename h
  obtain ⟨content, origin, here, horigin, hcontent, hhere, hmove⟩ := exists_of_rename h
  obtain ⟨there, htarget, hfile⟩ := read_eq_ok_iff.1 hq
  have hne := hkeeps.ne_of_target_ne horigin htarget hsource
  have hne' := hkeeps.ne_of_target_ne hhere htarget hdestination
  refine read_eq_ok_iff.2 ⟨there, hkeeps.target htarget, ?_⟩
  rcases hmove with ⟨_, rfl⟩ | ⟨hfree, hmoved, rfl⟩
  · exact hfile
  · rw [get?_move (ne_directory_of_file hcontent) hfree hmoved, if_neg hne', if_neg hne, hfile]

end FileTree

/-- **Putting a file in place leaves other files alone**, unless they are at its place or at the one
beside it. -/
theorem FileSystem.read_of_replace_of_ne {p q : Path} {content file : Bytes} {t t' : FileTree}
    (h : (replace p content : ExceptT Problem (StateM FileTree) Unit).run.run t = (.ok (), t'))
    (hplace : t'.target p ≠ t'.target q)
    (hdraft : t'.target (p.withExtension "tmp") ≠ t'.target q) (hq : t.read q = .ok file) :
    t'.read q = .ok file := by
  obtain ⟨written, hwrite, hrename⟩ := exists_of_replace h
  have hread := (t.extends_withParents p).read hq
  have hdraft' : written.target (p.withExtension "tmp") ≠ written.target q := by
    intro heq
    obtain ⟨here, hhere, _⟩ := FileTree.write_eq_ok_iff.1 hwrite
    have hkept := FileTree.keeps_of_write hwrite
    have hkept' := FileTree.keeps_of_rename hrename
    have hp := hkept.target hhere
    rw [hkept'.target hp, hkept'.target (heq.symm.trans hp)] at hdraft
    exact hdraft rfl
  have hwritten := FileTree.read_of_write_of_ne hwrite hdraft' hread
  exact FileTree.read_of_rename_of_ne hrename hdraft hplace hwritten

end GoalProgress.Files
