import GoalProgress.Files.Disk
import GoalProgress.Proofs.Files.Frame

/-!
# What putting a file in place touches

A file that is put in place is first written beside its place and then moved. So there are two
places where a file may change, appear or go away, and all others have the file that they had,
whichever step fails and however far it gets. After a failure only the file beside the place may
have changed; if no step fails, nothing is left there. The two places are one only for a file that
has the extension already.

## Main definitions

* `FileTree.LeadsTo`: the place that a path leads to.
* `FileTree.AddsDirectories`: a tree with further directories.
* `FileTree.Replaced`: what may have changed after a file was to be put in place.
-/
namespace GoalProgress.Files

namespace FileTree

variable {t t' : FileTree} {p : Path} {here there : Location}

/-- A path leads to a place where a file may stand. -/
def LeadsTo (t : FileTree) (p : Path) (here : Location) : Prop := t.target p = .ok (.name here)

theorem Keeps.leadsTo (h : t.Keeps t') (hp : t.LeadsTo p here) : t'.LeadsTo p here := h.target hp

theorem LeadsTo.unique (h : t.LeadsTo p here) (h' : t.LeadsTo p there) : here = there := by
  rw [LeadsTo, h] at h'
  cases h'
  rfl

/-- The place has the name that the path ends in. -/
theorem LeadsTo.exists_last (h : t.LeadsTo p here) :
    ∃ name outer, p.names.getLast? = some name ∧ name ≠ "." ∧ name ≠ ".." ∧
      here = name :: outer := by
  rw [LeadsTo, target] at h
  split at h
  · cases h
  · split at h
    · cases h
    · split at h
      · split at h <;> cases h
      · rename_i last hlast
        split at h
        · cases hfrom : t.directoryFrom (start p) p.names with
          | error problem =>
            rw [hfrom] at h
            cases h
          | ok found =>
            rw [hfrom] at h
            cases h
        · rename_i hname
          simp only [Bool.or_eq_true, beq_iff_eq, not_or] at hname
          obtain ⟨outer, hfrom, hplace⟩ := bind_eq_ok_iff.1 h
          split at hplace
          · cases hplace
          · cases hplace
            exact ⟨last, outer, hlast, hname.1.2, hname.2, rfl⟩

/-- The last name of a path counts among its components, unless it is a point. -/
theorem getLast?_components {name : String} (h : p.names.getLast? = some name) (hne : name ≠ ".") :
    p.components.getLast? = some name := by
  obtain ⟨names, hnames⟩ := List.getLast?_eq_some_iff.1 h
  have hkept : [name].filter (· != ".") = [name] := by simp [hne]
  rw [Path.components, hnames]
  cases names with
  | nil => simp [hne]
  | cons first rest =>
    simp only [List.cons_append, List.filter_append, hkept]
    split
    · simp
    · exact List.getLast?_concat (l := first :: _)

/-- A file has the place of the one beside it only if its name has the extension already. -/
theorem LeadsTo.exists_extension {extension : String} (h : t.LeadsTo p here)
    (hbeside : t.LeadsTo (p.withExtension extension) here) :
    ∃ stem, p.names.getLast? = some (stem ++ "." ++ extension) := by
  obtain ⟨name, outer, hname, hdot, hdots, rfl⟩ := h.exists_last
  obtain ⟨name', outer', hname', -, hdots', hplace⟩ := hbeside.exists_last
  obtain ⟨rfl, rfl⟩ := List.cons.inj hplace
  simp only [Path.withExtension, getLast?_components hname hdot, hdot, hdots, or_self,
    if_false] at hname'
  split at hname'
  · rw [List.getLast?_concat, Option.some.injEq] at hname'
    exact absurd hname'.symm hdots'
  · rw [List.getLast?_concat] at hname'
    exact ⟨Path.stem name, hname.trans hname'.symm⟩

/-- What may have changed in a tree of files after a file was to be put in place at `p` by way of
`draft`, which was `done` or has failed. -/
structure Replaced (t t' : FileTree) (p draft : Path) (done : Prop) : Prop where
  /-- No directory goes away, so that paths lead where they led. -/
  keeps : t.Keeps t'
  /-- At all other places the files are the same, and no file is there that was not. -/
  others : ∀ here, ¬ t'.LeadsTo p here → ¬ t'.LeadsTo draft here → t'.file? here = t.file? here
  /-- After a failure all places but the one beside have the file that they had, or none. -/
  undone : ¬ done → ∀ here, ¬ t'.LeadsTo draft here → t'.file? here = t.file? here
  /-- After a success nothing is left beside the place. -/
  tidy : done → ∀ here, t'.LeadsTo draft here → ¬ t'.LeadsTo p here → t'.file? here = none

/-! ## Single steps -/

theorem file?_congr (h : t'.get? here = t.get? here) : t'.file? here = t.file? here := by
  rw [file?, file?, h]

/-- A directory that is added is no file. -/
theorem file?_put_directory (h : t.get? here = none) (there : Location) :
    (t.put here .directory).file? there = t.file? there := by
  have hfree : ¬ here.isAncestor := not_isAncestor (t := t) (by simp [h])
  by_cases heq : here = there
  · subst heq
    simp [file?, get?_put t hfree, h]
  · apply file?_congr
    rw [get?_put t hfree, if_neg heq]

/-- The second tree has all directories of the first one, and the same files. -/
structure AddsDirectories (t t' : FileTree) : Prop where
  keeps : t.Keeps t'
  file?_eq : ∀ here, t'.file? here = t.file? here

namespace AddsDirectories

theorem refl (t : FileTree) : t.AddsDirectories t := ⟨fun _ h => h, fun _ => rfl⟩

theorem trans {t'' : FileTree} (h : t.AddsDirectories t') (h' : t'.AddsDirectories t'') :
    t.AddsDirectories t'' :=
  ⟨h.keeps.trans h'.keeps, fun here => (h'.file?_eq here).trans (h.file?_eq here)⟩

theorem put (h : t.get? here = none) : t.AddsDirectories (t.put here .directory) :=
  ⟨(extends_put h .directory).keeps, file?_put_directory h⟩

end AddsDirectories

theorem addsDirectories_createDirectories (t : FileTree) (p : Path) :
    t.AddsDirectories (t.createDirectories p).2 :=
  rel_createDirectoriesFrom .refl .trans .put p.absolute p.names.reverse t

theorem addsDirectories_createDirectoriesWith (t : FileTree) (p : Path) (mishap : Mishap) :
    t.AddsDirectories (t.createDirectoriesWith p mishap).2 := by
  cases mishap with
  | refused problem => exact .refl t
  | brokenOff done problem =>
    exact t.addsDirectories_createDirectories { p with names := p.names.take done }

/-- A write with a mishap changes nothing or leaves some file in place of the one that was there. -/
theorem writeWith_cases {content : Bytes} {mishap : Mishap} {result : Except Problem Unit}
    (h : t.writeWith p content mishap = (result, t')) :
    result ≠ .ok () ∧ (t' = t ∨ ∃ part, t.write p part = .ok t') := by
  cases mishap with
  | refused problem =>
    cases h
    exact ⟨nofun, .inl rfl⟩
  | brokenOff done problem =>
    rw [writeWith] at h
    split at h
    · cases h
      exact ⟨nofun, .inr ⟨_, ‹_›⟩⟩
    · cases h
      exact ⟨nofun, .inl rfl⟩

/-- A change of a tree is done as a whole or fails as a whole. -/
theorem update_cases {f : FileTree → Except Problem FileTree} {result : Except Problem Unit}
    (h : (update f).run t = (result, t')) :
    (result = .ok () ∧ f t = .ok t') ∨ (result ≠ .ok () ∧ t' = t) := by
  cases hf : f t with
  | ok next =>
    have hrun : (update f).run t = (.ok (), next) := by
      simp only [update, StateT.run, hf]
    rw [hrun] at h
    cases h
    exact .inl ⟨rfl, rfl⟩
  | error problem =>
    have hrun : (update f).run t = (.error problem, t) := by
      simp only [update, StateT.run, hf]
    rw [hrun] at h
    cases h
    refine .inr ⟨?_, rfl⟩
    intro hok
    cases hok

theorem file?_of_write {content : Bytes} (h : t.write p content = .ok t')
    (hp : ¬ t'.LeadsTo p there) : t'.file? there = t.file? there := by
  obtain ⟨here, hhere, hfree, rfl⟩ := write_eq_ok_iff.1 h
  have hne : here ≠ there := by
    intro heq
    exact hp ((keeps_put hfree _).leadsTo (heq ▸ hhere))
  apply file?_congr
  rw [get?_put t (not_isAncestor hfree), if_neg hne]

section Rename

variable {source destination : Path}

theorem file?_of_rename (h : t.rename source destination = .ok t')
    (hsource : ¬ t'.LeadsTo source there) (hdestination : ¬ t'.LeadsTo destination there) :
    t'.file? there = t.file? there := by
  have hkeeps := keeps_of_rename h
  obtain ⟨content, origin, here, horigin, hcontent, hhere, hmove⟩ := exists_of_rename h
  have hne : origin ≠ there := by
    intro heq
    exact hsource (hkeeps.leadsTo (heq ▸ horigin))
  have hne' : here ≠ there := by
    intro heq
    exact hdestination (hkeeps.leadsTo (heq ▸ hhere))
  rcases hmove with ⟨_, rfl⟩ | ⟨hfree, hmoved, rfl⟩
  · rfl
  · apply file?_congr
    rw [get?_move (ne_directory_of_file hcontent) hfree hmoved, if_neg hne', if_neg hne]

/-- A file that was moved away has left nothing behind. -/
theorem file?_source_of_rename (h : t.rename source destination = .ok t')
    (hsource : t'.LeadsTo source there) (hdestination : ¬ t'.LeadsTo destination there) :
    t'.file? there = none := by
  have hkeeps := keeps_of_rename h
  obtain ⟨content, origin, here, horigin, hcontent, hhere, hmove⟩ := exists_of_rename h
  obtain rfl : origin = there := (hkeeps.leadsTo horigin).unique hsource
  have hne : here ≠ origin := by
    intro heq
    exact hdestination (hkeeps.leadsTo (heq ▸ hhere))
  rcases hmove with ⟨heq, rfl⟩ | ⟨hfree, hmoved, rfl⟩
  · exact absurd heq.symm hne
  · rw [file?, get?_move (ne_directory_of_file hcontent) hfree hmoved, if_neg hne, if_pos rfl]

end Rename

/-! ## All steps together -/

namespace Replaced

variable {draft : Path} {done : Prop} {placed written : FileTree} {content : Bytes}

/-- Nothing is touched as long as nothing is written. -/
theorem of_addsDirectories (h : t.AddsDirectories t') (hdone : ¬ done) :
    t.Replaced t' p draft done where
  keeps := h.keeps
  others here _ _ := h.file?_eq here
  undone _ here _ := h.file?_eq here
  tidy hd := absurd hd hdone

/-- Whatever has been written, only the file beside the place is touched before the move. -/
theorem of_write (h : t.AddsDirectories placed) (hwrite : placed.write draft content = .ok t')
    (hdone : ¬ done) : t.Replaced t' p draft done where
  keeps := h.keeps.trans (keeps_of_write hwrite)
  others here _ hdraft := by rw [file?_of_write hwrite hdraft, h.file?_eq]
  undone _ here hdraft := by rw [file?_of_write hwrite hdraft, h.file?_eq]
  tidy hd := absurd hd hdone

theorem of_rename (h : t.AddsDirectories placed)
    (hwrite : placed.write draft content = .ok written)
    (hrename : written.rename draft p = .ok t') (hdone : done) : t.Replaced t' p draft done where
  keeps := (h.keeps.trans (keeps_of_write hwrite)).trans (keeps_of_rename hrename)
  others here hp hdraft := by
    have hdraft' : ¬ written.LeadsTo draft here := by
      intro hd
      exact hdraft ((keeps_of_rename hrename).leadsTo hd)
    rw [file?_of_rename hrename hdraft hp, file?_of_write hwrite hdraft', h.file?_eq]
  undone hd := absurd hdone hd
  tidy _ here hdraft hp := file?_source_of_rename hrename hdraft hp

end Replaced

end FileTree

/-! ## Steps on a disk -/

namespace Disk

variable {d d' : Disk} {p : Path} {result : Except Problem Unit}

/-- An operation does what it does without a mishap, or what it does with one. -/
theorem operate_cases {smooth : StateM FileTree (Except Problem Unit)}
    {spoiled : Mishap → StateM FileTree (Except Problem Unit)}
    (h : (operate smooth spoiled).run d = (result, d')) :
    smooth.run d.tree = (result, d'.tree) ∨
      ∃ mishap, (spoiled mishap).run d.tree = (result, d'.tree) := by
  have hrun : (operate smooth spoiled).run d =
      ((d.mishaps.head?.join.elim smooth spoiled).run d.tree).map id
        fun tree => ⟨tree, d.mishaps.tail⟩ := rfl
  rw [hrun] at h
  cases hmishap : d.mishaps.head?.join with
  | none =>
    rw [hmishap] at h
    cases h
    exact .inl rfl
  | some mishap =>
    rw [hmishap] at h
    cases h
    exact .inr ⟨mishap, rfl⟩

/-- The directories for a file are added, however many of them. -/
theorem addsDirectories_of_makeParents
    (h : (FileSystem.makeParents p : StateM Disk _).run d = (result, d')) :
    d.tree.AddsDirectories d'.tree := by
  cases hparent : p.parent? with
  | none =>
    rw [FileSystem.makeParents, hparent] at h
    cases h
    exact .refl d.tree
  | some directory =>
    rw [FileSystem.makeParents, hparent] at h
    rcases operate_cases h with hsmooth | ⟨mishap, hspoiled⟩
    · have htree : (d.tree.createDirectories directory).2 = d'.tree := congrArg Prod.snd hsmooth
      exact htree ▸ d.tree.addsDirectories_createDirectories directory
    · have htree : (d.tree.createDirectoriesWith directory mishap).2 = d'.tree :=
        congrArg Prod.snd hspoiled
      exact htree ▸ d.tree.addsDirectories_createDirectoriesWith directory mishap

/-- A write that fails changes nothing or leaves some file in place of the one that was there. -/
theorem write_cases {content : Bytes}
    (h : (FileSystem.write p content : StateM Disk _).run d = (result, d')) :
    (result = .ok () ∧ d.tree.write p content = .ok d'.tree) ∨
      (result ≠ .ok () ∧ (d'.tree = d.tree ∨ ∃ part, d.tree.write p part = .ok d'.tree)) := by
  rcases operate_cases h with hsmooth | ⟨mishap, hspoiled⟩
  · exact (FileTree.update_cases hsmooth).imp_right (.imp_right .inl)
  · exact .inr (FileTree.writeWith_cases hspoiled)

/-- A move that fails changes nothing. -/
theorem rename_cases {source destination : Path}
    (h : (FileSystem.rename source destination : StateM Disk _).run d = (result, d')) :
    (result = .ok () ∧ d.tree.rename source destination = .ok d'.tree) ∨
      (result ≠ .ok () ∧ d'.tree = d.tree) := by
  rcases operate_cases h with hsmooth | ⟨mishap, hspoiled⟩
  · exact FileTree.update_cases hsmooth
  · obtain ⟨rfl, htree⟩ := Prod.mk.inj hspoiled
    exact .inr ⟨nofun, htree.symm⟩

end Disk

/-- **Putting a file in place touches its place and the one beside it**, and no others, whatever
mishaps there are. -/
theorem FileSystem.replaced (p : Path) (content : Bytes) (d : Disk) :
    ∃ result d', (replace p content : ExceptT Problem (StateM Disk) Unit).run.run d =
        (result, d') ∧
      d.tree.Replaced d'.tree p (p.withExtension "tmp") (result = .ok ()) := by
  rw [run_replace_eq]
  obtain ⟨⟨result, placed⟩, hparents⟩ :
    ∃ r, (makeParents p : StateM Disk (Except Problem Unit)).run d = r := ⟨_, rfl⟩
  have hadds := Disk.addsDirectories_of_makeParents hparents
  rw [hparents]
  obtain problem | _ := result
  · exact ⟨_, _, rfl, .of_addsDirectories hadds nofun⟩
  obtain ⟨⟨result, written⟩, hwrite⟩ :
    ∃ r, (write (p.withExtension "tmp") content : StateM Disk (Except Problem Unit)).run placed =
      r := ⟨_, rfl⟩
  simp only [hwrite]
  rcases Disk.write_cases hwrite with ⟨rfl, hwritten⟩ | ⟨hfailed, hwritten⟩
  · obtain ⟨⟨result, moved⟩, hrename⟩ :
      ∃ r, (rename (p.withExtension "tmp") p : StateM Disk (Except Problem Unit)).run written =
        r := ⟨_, rfl⟩
    refine ⟨result, moved, hrename, ?_⟩
    rcases Disk.rename_cases hrename with ⟨hdone, hmoved⟩ | ⟨hfailed, hmoved⟩
    · exact .of_rename hadds hwritten hmoved hdone
    · rw [hmoved]
      exact .of_write hadds hwritten hfailed
  · obtain problem | _ := result
    · refine ⟨_, _, rfl, ?_⟩
      rcases hwritten with heq | ⟨part, hpart⟩
      · rw [heq]
        exact .of_addsDirectories hadds nofun
      · exact .of_write hadds hpart nofun
    · exact absurd rfl hfailed

/-- Where no mishap is to come, a file is put in place on a disk as it is in a tree. -/
theorem FileSystem.run_replace_smooth (p : Path) (content : Bytes) (t : FileTree) :
    (replace p content : ExceptT Problem (StateM Disk) Unit).run.run ⟨t, []⟩ =
      Prod.map id (fun tree => ⟨tree, []⟩)
        ((replace p content : ExceptT Problem (StateM FileTree) Unit).run.run t) := by
  have hparents : (makeParents p : StateM Disk (Except Problem Unit)).run ⟨t, []⟩ =
      ((makeParents p : StateM FileTree (Except Problem Unit)).run t).map id (⟨·, []⟩) := by
    rw [makeParents, makeParents]
    cases p.parent? <;> rfl
  rw [run_replace_eq, run_replace_eq, hparents]
  obtain ⟨problem | _, placed⟩ := (makeParents p : StateM FileTree (Except Problem Unit)).run t
  · rfl
  · have hwrite : (write (p.withExtension "tmp") content : StateM Disk (Except Problem Unit)).run
        ⟨placed, []⟩ = ((write (p.withExtension "tmp") content :
          StateM FileTree (Except Problem Unit)).run placed).map id (⟨·, []⟩) := rfl
    simp only [Prod.map, id]
    rw [hwrite]
    obtain ⟨problem | _, written⟩ := (write (p.withExtension "tmp") content :
      StateM FileTree (Except Problem Unit)).run placed <;> rfl

end GoalProgress.Files
