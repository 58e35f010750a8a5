import GoalProgress.Config
import GoalProgress.Proofs.Toml.DateTable

/-!
# The keys that are not known

Keys that are not known are told by their names alone, but sections are read for dates before: one
that has the form of a date shows no keys. A table in the form of a date that is none is a fault,
and then no keys can be told at all.

## Main definitions

* `Config.PassesOver`: the keys that are not known, as they are to be reported.
* `Config.Reports`: those that can be told, without the keys of sections in the form of a date.
* `Config.GenuineDates`: what has the form of a date is one.
* `Config.PlainSections`: no section has the form of a date.
-/
namespace GoalProgress

open Toml (Value Table)

namespace Config

variable {t : Table} {known names : List String} {name : String}

/-! ## Names that are not known -/

/-- The names of a table that are not known, in ascending order and each once. -/
structure Lists (t : Table) (known names : List String) : Prop where
  ascending : names.Pairwise (· < ·)
  mem_iff : ∀ name, name ∈ names ↔ name ∈ t.names ∧ name ∉ known

theorem mem_otherNames : name ∈ otherNames t known ↔ name ∈ t.names ∧ name ∉ known := by
  have hperm : (otherNames t known).Perm (t.names.filter (!known.contains ·)) :=
    List.mergeSort_perm _ _
  rw [hperm.mem_iff]
  simp

theorem lists_otherNames (h : t.names.Nodup) (known : List String) :
    Lists t known (otherNames t known) := by
  have hperm : (otherNames t known).Perm (t.names.filter (!known.contains ·)) :=
    List.mergeSort_perm _ _
  have hle : (otherNames t known).Pairwise (· ≤ ·) :=
    Toml.pairwise_le_mergeSort (fun name => name) _
  have hne : (otherNames t known).Pairwise (· ≠ ·) :=
    hperm.nodup_iff.2 (h.sublist List.filter_sublist)
  refine ⟨(hle.and hne).imp ?_, fun name => mem_otherNames⟩
  intro a b hab
  apply String.not_le.1
  intro hba
  exact hab.2 (String.le_antisymm hab.1 hba)

theorem Lists.unique {names' : List String} (h : Lists t known names) (h' : Lists t known names') :
    names = names' := by
  have hnodup {names : List String} (hnames : names.Pairwise (· < ·)) : names.Nodup :=
    hnames.imp String.ne_of_lt
  refine List.Perm.eq_of_pairwise ?_ h.ascending h'.ascending
    ((List.perm_ext_iff_of_nodup (hnodup h.ascending) (hnodup h'.ascending)).2 ?_)
  · intro a b _ _ hab hba
    exact absurd (String.lt_trans hab hba) (String.lt_irrefl a)
  · intro name
    rw [h.mem_iff, h'.mem_iff]

/-- The keys that are not known: first those of the table, then those of the two sections. -/
def ListsAll (t cache response : Table) (keys : List String) : Prop :=
  ∃ top inCache inResponse, Lists t knownKeys top ∧ Lists cache cacheKeys inCache ∧
    Lists response responseKeys inResponse ∧
    keys = top ++ inCache.map ("cache." ++ ·) ++ inResponse.map ("response." ++ ·)

/-- The keys that are not known, one after the other. -/
def otherKeys (t cache response : Table) : List String :=
  otherNames t knownKeys ++ (otherNames cache cacheKeys).map ("cache." ++ ·) ++
    (otherNames response responseKeys).map ("response." ++ ·)

/-- The keys that are not known can be listed in one way only. -/
theorem listsAll_iff {cache response : Table} (ht : t.names.Nodup) (hcache : cache.names.Nodup)
    (hresponse : response.names.Nodup) {keys : List String} :
    ListsAll t cache response keys ↔ keys = otherKeys t cache response := by
  have htop := lists_otherNames ht knownKeys
  have hcache := lists_otherNames hcache cacheKeys
  have hresponse := lists_otherNames hresponse responseKeys
  constructor
  · rintro ⟨top, inCache, inResponse, htop', hcache', hresponse', rfl⟩
    rw [otherKeys, htop.unique htop', hcache.unique hcache', hresponse.unique hresponse']
  · rintro rfl
    exact ⟨_, _, _, htop, hcache, hresponse, rfl⟩

/-! ## Sections -/

/-- The members of a section, if it is a table. -/
def sectionTable (t : Table) (name : String) : Table :=
  match t.get? name with
  | some (.table members) => members
  | _ => []

/-- The members of a section, if it is a table that does not have the form of a date. -/
def shownTable (t : Table) (name : String) : Table :=
  if (Toml.marked? (sectionTable t name)).isSome then [] else sectionTable t name

/-- The keys that are not known, as they are to be reported. -/
def PassesOver (t : Table) (keys : List String) : Prop :=
  ListsAll t (sectionTable t "cache") (sectionTable t "response") keys

/-- The keys that are not known, without those of sections in the form of a date. -/
def Reports (t : Table) (keys : List String) : Prop :=
  ListsAll t (shownTable t "cache") (shownTable t "response") keys

/-- A section does not have the form of a date. -/
def PlainSection (t : Table) (name : String) : Prop :=
  Toml.marked? (sectionTable t name) = none

/-- No section has the form of a date. -/
def PlainSections (t : Table) : Prop := PlainSection t "cache" ∧ PlainSection t "response"

theorem nodup_names_sectionTable (h : (Value.table t).Distinct) (name : String) :
    (sectionTable t name).names.Nodup := by
  cases h with
  | table names values =>
    rw [sectionTable]
    split
    · rename_i members hget
      cases values _ (Table.mem_of_get? hget) with
      | table names _ => exact names
    · exact List.nodup_nil

theorem nodup_names_shownTable (h : (Value.table t).Distinct) (name : String) :
    (shownTable t name).names.Nodup := by
  rw [shownTable]
  split
  · exact List.nodup_nil
  · exact nodup_names_sectionTable h name

theorem passesOver_iff (h : (Value.table t).Distinct) {keys : List String} :
    PassesOver t keys ↔
      keys = otherKeys t (sectionTable t "cache") (sectionTable t "response") := by
  have hcache := nodup_names_sectionTable h "cache"
  have hresponse := nodup_names_sectionTable h "response"
  cases h with
  | table names values => exact listsAll_iff names hcache hresponse

theorem reports_iff (h : (Value.table t).Distinct) {keys : List String} :
    Reports t keys ↔ keys = otherKeys t (shownTable t "cache") (shownTable t "response") := by
  have hcache := nodup_names_shownTable h "cache"
  have hresponse := nodup_names_shownTable h "response"
  cases h with
  | table names values => exact listsAll_iff names hcache hresponse

/-- A section shows no more names than it has, and fewer if it has the form of a date: then the mark
of dates is one of them, and it is not known. -/
theorem length_otherNames_shownTable (t : Table) (name : String) (hknown : Toml.dateMark ∉ known) :
    (otherNames (shownTable t name) known).length ≤
        (otherNames (sectionTable t name) known).length ∧
      ((otherNames (sectionTable t name) known).length ≤
        (otherNames (shownTable t name) known).length → PlainSection t name) := by
  cases hmark : Toml.marked? (sectionTable t name) with
  | none =>
    rw [shownTable, hmark]
    exact ⟨Nat.le_refl _, fun _ => hmark⟩
  | some entry =>
    have hnil : otherNames [] known = [] := by simp [otherNames, Table.names]
    have hmem : Toml.dateMark ∈ otherNames (sectionTable t name) known := by
      rw [mem_otherNames, Toml.eq_cons_of_marked? hmark]
      exact ⟨List.mem_cons_self, hknown⟩
    have hpos := List.length_pos_of_mem hmem
    rw [shownTable, hmark, Option.isSome_some, if_pos rfl, hnil, List.length_nil]
    exact ⟨Nat.zero_le _, fun hle => absurd hpos (Nat.not_lt.2 hle)⟩

/-- All keys can be told exactly if no section has the form of a date. -/
theorem otherKeys_shownTable_eq_iff (t : Table) :
    otherKeys t (shownTable t "cache") (shownTable t "response") =
      otherKeys t (sectionTable t "cache") (sectionTable t "response") ↔ PlainSections t := by
  obtain ⟨hcache, hplain⟩ := length_otherNames_shownTable t "cache"
    (show Toml.dateMark ∉ cacheKeys by decide)
  obtain ⟨hresponse, hplain'⟩ := length_otherNames_shownTable t "response"
    (show Toml.dateMark ∉ responseKeys by decide)
  constructor
  · intro heq
    have hlength := congrArg List.length heq
    simp only [otherKeys, List.length_append, List.length_map] at hlength
    exact ⟨hplain (by omega), hplain' (by omega)⟩
  · rintro ⟨hnone, hnone'⟩
    rw [PlainSection] at hnone hnone'
    simp [shownTable, hnone, hnone']

/-- Where all keys are known, no section has the form of a date. -/
theorem plainSections_of_otherKeys
    (h : otherKeys t (sectionTable t "cache") (sectionTable t "response") = []) :
    PlainSections t := by
  have hlength := congrArg List.length h
  simp only [otherKeys, List.length_append, List.length_map, List.length_nil] at hlength
  have hcache := (length_otherNames_shownTable t "cache"
    (show Toml.dateMark ∉ cacheKeys by decide)).2
  have hresponse := (length_otherNames_shownTable t "response"
    (show Toml.dateMark ∉ responseKeys by decide)).2
  exact ⟨hcache (by omega), hresponse (by omega)⟩

/-! ## Dates -/

/-- Every table in the form of a date is one, and it stands alone unless it is in a section. -/
def GenuineDates (t : Table) : Prop := ∀ m ∈ t, m.2.Genuine (!isSection m.1)

theorem isOk_datedSections : (datedSections t).isOk = true ↔ GenuineDates t := by
  have hsections : (datedSections t).isOk =
      ((Toml.membersWithDates false (t.filter (isSection ·.1))).isOk &&
        (Toml.membersWithDates true (t.filter (!isSection ·.1))).isOk) := by
    rw [datedSections]
    cases Toml.membersWithDates false (t.filter (isSection ·.1)) <;>
      cases Toml.membersWithDates true (t.filter (!isSection ·.1)) <;> rfl
  rw [hsections, Bool.and_eq_true, Toml.isOk_membersWithDates, Toml.isOk_membersWithDates]
  constructor
  · rintro ⟨hsection, hother⟩ m hm
    cases hname : isSection m.1 with
    | true => exact hsection m (List.mem_filter.2 ⟨hm, hname⟩)
    | false => exact hother m (List.mem_filter.2 ⟨hm, by simp [hname]⟩)
  · intro h
    constructor
    · intro m hm
      obtain ⟨hm, hname⟩ := List.mem_filter.1 hm
      have hgenuine := h m hm
      rwa [hname] at hgenuine
    · intro m hm
      obtain ⟨hm, hname⟩ := List.mem_filter.1 hm
      have hgenuine := h m hm
      rwa [hname] at hgenuine

/-- With its dates a section has the keys that it shows. -/
theorem unrecognizedIn_datedSections {sections : Table} (h : datedSections t = .ok sections)
    (hname : isSection name = true) (known : List String) :
    unrecognizedIn sections name known =
      (otherNames (shownTable t name) known).map (name ++ "." ++ ·) := by
  have hnil : otherNames [] known = [] := by simp [otherNames, Table.names]
  have hget : (sections.get? name).map .ok = (t.get? name).map (Value.withDates false) := by
    obtain ⟨dated, hdated, h⟩ := bind_eq_ok_iff.1 h
    obtain ⟨_, -, h⟩ := bind_eq_ok_iff.1 h
    cases h
    rw [Toml.get?_membersWithDates hdated, Table.get?_filter, if_pos hname]
  rw [unrecognizedIn, shownTable, sectionTable]
  cases hv : t.get? name with
  | none =>
    rw [hv, Option.map_none, Option.map_eq_none_iff] at hget
    simp [hget, hnil]
  | some v =>
    rw [hv, Option.map_some, Option.map_eq_some_iff] at hget
    obtain ⟨w, hw, heq⟩ := hget
    rw [hw]
    cases v with
    | table members =>
      rw [Value.withDates] at heq
      cases hmark : Toml.marked? members with
      | none =>
        rw [hmark] at heq
        obtain ⟨dated, hdated, rfl⟩ := map_eq_ok_iff.1 heq.symm
        simp [otherNames, Toml.names_membersWithDates hdated]
      | some entry =>
        rw [hmark] at heq
        obtain rfl := Toml.eq_moment_of_readMarked heq.symm
        simp [hnil]
    | array items =>
      obtain ⟨dated, -, rfl⟩ := map_eq_ok_iff.1 heq.symm
      simp [hnil]
    | _ =>
      cases heq
      simp [hnil]

/-- **The keys that can be told are those that the sections show**, if every table in the form of a
date is one. Otherwise none can be told. -/
theorem unrecognized_eq (t : Table) :
    unrecognized t = (datedSections t).map fun _ =>
      otherKeys t (shownTable t "cache") (shownTable t "response") := by
  rw [unrecognized]
  cases hsections : datedSections t with
  | error fault => rfl
  | ok sections =>
    have hcache := unrecognizedIn_datedSections hsections (show isSection "cache" = true by decide)
    have hresponse :=
      unrecognizedIn_datedSections hsections (show isSection "response" = true by decide)
    refine congrArg Except.ok ?_
    rw [hcache, hresponse]
    rfl

theorem isOk_unrecognized : (unrecognized t).isOk = true ↔ GenuineDates t := by
  rw [← isOk_datedSections, unrecognized_eq, isOk_map]

end Config

end GoalProgress
