import GoalProgress.Toml.Reader

/-!
# No name occurs twice

In a table that is read from a document no name occurs twice, and neither does one in the tables
inside it. While the document is read this holds of the open tables: a name is added only where it
is missing, and what stands under it is replaced in its place.

## Main definitions

* `Value.Distinct`: no table in a value has a name twice.
* `Node.Distinct`, `Node.AllDistinct`: the same for what is still open.
-/
namespace GoalProgress.Toml

/-- No table in a value has a name twice. -/
inductive Value.Distinct : Value → Prop where
  | text (s : String) : Distinct (.text s)
  | integer (n : Int) : Distinct (.integer n)
  | real (x : Float) : Distinct (.real x)
  | boolean (b : Bool) : Distinct (.boolean b)
  | moment : Distinct .moment
  | array {items : List Value} (values : ∀ v ∈ items, Distinct v) : Distinct (.array items)
  | table {members : List (String × Value)} (names : (Table.names members).Nodup)
      (values : ∀ m ∈ members, Distinct m.2) : Distinct (.table members)

namespace Node

/-- No table in what stands under a name has a name twice. -/
inductive Distinct : Node → Prop where
  | value {v : Value} (h : v.Distinct) : Distinct (.value v)
  | table {origin : Origin} {members : List (String × Node)} (names : (members.map (·.1)).Nodup)
      (nodes : ∀ m ∈ members, Distinct m.2) : Distinct (.table origin members)
  | items {finished : List Value} {last : List (String × Node)}
      (values : ∀ v ∈ finished, v.Distinct) (names : (last.map (·.1)).Nodup)
      (nodes : ∀ m ∈ last, Distinct m.2) : Distinct (.items finished last)

/-- Neither an open table nor one inside it has a name twice. -/
structure AllDistinct (members : List (String × Node)) : Prop where
  names : (members.map (·.1)).Nodup
  nodes : ∀ m ∈ members, m.2.Distinct

/-! ## Finished tables -/

theorem closeAll_eq_map (members : List (String × Node)) :
    closeAll members = members.map fun m => (m.1, m.2.close) := by
  induction members with
  | nil => rfl
  | cons m members ih => rw [closeAll, ih, List.map_cons]

theorem names_closeAll (members : List (String × Node)) :
    Table.names (closeAll members) = members.map (·.1) := by
  rw [closeAll_eq_map, Table.names, List.map_map]
  rfl

theorem mem_closeAll {members : List (String × Node)} {m : String × Value}
    (h : m ∈ closeAll members) : ∃ node, (m.1, node) ∈ members ∧ m.2 = node.close := by
  rw [closeAll_eq_map] at h
  obtain ⟨entry, hentry, rfl⟩ := List.mem_map.1 h
  exact ⟨entry.2, hentry, rfl⟩

theorem Distinct.close {node : Node} (h : node.Distinct) : node.close.Distinct := by
  have htable {members : List (String × Node)} (names : (members.map (·.1)).Nodup)
      (values : ∀ m ∈ members, m.2.close.Distinct) : (Value.table (closeAll members)).Distinct := by
    refine .table (names_closeAll members ▸ names) ?_
    intro m hm
    obtain ⟨node, hnode, heq⟩ := mem_closeAll hm
    exact heq ▸ values _ hnode
  induction h with
  | value h => exact h
  | table names nodes ih => exact htable names ih
  | items values names nodes ih =>
    apply Value.Distinct.array
    intro v hv
    rcases List.mem_append.1 hv with hv | hv
    · exact values v hv
    · rw [List.mem_singleton.1 hv]
      exact htable names ih

namespace AllDistinct

variable {members : List (String × Node)} {name : String} {node : Node}

theorem nil : AllDistinct [] := ⟨List.nodup_nil, nofun⟩

theorem table (h : AllDistinct members) (origin : Origin) : (Node.table origin members).Distinct :=
  .table h.names h.nodes

theorem items (h : AllDistinct members) {finished : List Value}
    (values : ∀ v ∈ finished, v.Distinct) : (Node.items finished members).Distinct :=
  .items values h.names h.nodes

/-- The finished table has no name twice either. -/
theorem closeAll (h : AllDistinct members) : (Value.table (closeAll members)).Distinct :=
  (h.table .header).close

theorem of_find? (h : AllDistinct members) (hfind : find? members name = some node) :
    node.Distinct := by
  obtain ⟨front, back, rfl, -⟩ := List.lookup_eq_some_iff.1 hfind
  exact h.nodes (name, node) (by simp)

/-! ## Changes -/

theorem not_mem_of_find? (h : find? members name = none) : name ∉ members.map (·.1) := by
  intro hmem
  obtain ⟨m, hm, rfl⟩ := List.mem_map.1 hmem
  simpa using List.lookup_eq_none_iff.1 h m hm

theorem append (h : AllDistinct members) (hfind : find? members name = none)
    (hnode : node.Distinct) : AllDistinct (members ++ [(name, node)]) := by
  have hnew := not_mem_of_find? hfind
  constructor
  · rw [List.map_append, List.nodup_append]
    refine ⟨h.names, by simp, ?_⟩
    intro other hother last hlast heq
    obtain rfl : last = name := by simpa using hlast
    exact hnew (heq ▸ hother)
  · intro m hm
    rcases List.mem_append.1 hm with hm | hm
    · exact h.nodes m hm
    · rw [List.mem_singleton.1 hm]
      exact hnode

theorem mem_put {m : String × Node} (h : m ∈ put members name node) :
    m = (name, node) ∨ m ∈ members := by
  induction members with
  | nil => exact .inl (List.mem_singleton.1 h)
  | cons first members ih =>
    rw [put] at h
    split at h
    · rcases List.mem_cons.1 h with rfl | h
      · exact .inl rfl
      · exact .inr (List.mem_cons_of_mem _ h)
    · rcases List.mem_cons.1 h with rfl | h
      · exact .inr List.mem_cons_self
      · exact (ih h).imp id (List.mem_cons_of_mem _)

theorem nodup_put (h : (members.map (·.1)).Nodup) : ((put members name node).map (·.1)).Nodup := by
  induction members with
  | nil => simp [put]
  | cons first members ih =>
    rw [List.map_cons, List.nodup_cons] at h
    rw [put]
    split
    · rename_i hname
      rw [List.map_cons, List.nodup_cons]
      exact ⟨hname ▸ h.1, h.2⟩
    · rename_i hname
      rw [List.map_cons, List.nodup_cons]
      refine ⟨?_, ih h.2⟩
      intro hmem
      obtain ⟨m, hm, heq⟩ := List.mem_map.1 hmem
      rcases mem_put hm with rfl | hm
      · exact hname heq.symm
      · exact h.1 (heq ▸ List.mem_map_of_mem hm)

theorem put (h : AllDistinct members) (hnode : node.Distinct) :
    AllDistinct (put members name node) := by
  refine ⟨nodup_put h.names, ?_⟩
  intro m hm
  rcases mem_put hm with rfl | hm
  · exact hnode
  · exact h.nodes m hm

theorem remove (h : AllDistinct members) (name : String) : AllDistinct (remove members name) :=
  ⟨h.names.sublist (List.filter_sublist.map _), fun m hm => h.nodes m (List.mem_filter.1 hm).1⟩

theorem find?_remove (members : List (String × Node)) (name : String) :
    find? (Node.remove members name) name = none := by
  rw [find?, List.lookup_eq_none_iff]
  intro m hm
  have hne := (List.mem_filter.1 hm).2
  simpa [bne_comm] using hne

end AllDistinct

section Changes

variable {members changed : List (String × Node)} {path : List String} {name : String}

theorem Distinct.inner {origin : Origin} (h : (Node.table origin members).Distinct) :
    AllDistinct members := by
  cases h with
  | table names nodes => exact ⟨names, nodes⟩

theorem Distinct.last {finished : List Value} (h : (Node.items finished members).Distinct) :
    AllDistinct members := by
  cases h with
  | items values names nodes => exact ⟨names, nodes⟩

theorem Distinct.finished {finished : List Value} (h : (Node.items finished members).Distinct) :
    ∀ v ∈ finished, v.Distinct := by
  cases h with
  | items values names nodes => exact values

/-- A value is given to a name only where the name is missing. -/
theorem allDistinct_of_insert? {v : Value} (hv : v.Distinct) (h : AllDistinct members)
    (hinsert : insert? path name v members = some changed) : AllDistinct changed := by
  induction path generalizing members changed with
  | nil =>
    rw [insert?] at hinsert
    split at hinsert
    · rename_i hnone
      cases hinsert
      exact h.append (Option.isNone_iff_eq_none.1 hnone) (.value hv)
    · cases hinsert
  | cons first path ih =>
    rw [insert?] at hinsert
    split at hinsert
    · rename_i hfind
      obtain ⟨inner, hinner, rfl⟩ := Option.map_eq_some_iff.1 hinsert
      exact h.append hfind ((ih .nil hinner).table _)
    · rename_i origin inner hfind
      split at hinsert
      · cases hinsert
      · obtain ⟨inner', hinner, rfl⟩ := Option.map_eq_some_iff.1 hinsert
        exact h.put ((ih (h.of_find? hfind).inner hinner).table _)
    · rename_i finished last hfind
      split at hinsert
      · cases hinsert
      · obtain ⟨last', hlast, rfl⟩ := Option.map_eq_some_iff.1 hinsert
        have hitems := h.of_find? hfind
        exact h.put ((ih hitems.last hlast).items hitems.finished)
    · cases hinsert

/-- A change that keeps names apart does so inside another table as well. -/
theorem allDistinct_of_within? {change : List (String × Node) → Option (List (String × Node))}
    (hchange : ∀ {members changed}, AllDistinct members → change members = some changed →
      AllDistinct changed)
    (h : AllDistinct members) (hwithin : within? change path members = some changed) :
    AllDistinct changed := by
  induction path generalizing members changed with
  | nil => exact hchange h hwithin
  | cons first path ih =>
    rw [within?] at hwithin
    split at hwithin
    · rename_i hfind
      obtain ⟨inner, hinner, rfl⟩ := Option.map_eq_some_iff.1 hwithin
      exact h.append hfind ((ih .nil hinner).table _)
    · rename_i origin inner hfind
      obtain ⟨inner', hinner, rfl⟩ := Option.map_eq_some_iff.1 hwithin
      exact h.put ((ih (h.of_find? hfind).inner hinner).table _)
    · rename_i finished last hfind
      obtain ⟨last', hlast, rfl⟩ := Option.map_eq_some_iff.1 hwithin
      have hitems := h.of_find? hfind
      exact h.put ((ih hitems.last hlast).items hitems.finished)
    · cases hwithin

theorem allDistinct_of_openTable? (h : AllDistinct members)
    (hopen : openTable? name members = some changed) : AllDistinct changed := by
  rw [openTable?] at hopen
  split at hopen
  · rename_i hfind
    cases hopen
    exact h.append hfind (AllDistinct.nil.table _)
  · rename_i inner hfind
    cases hopen
    have hnone := AllDistinct.find?_remove members name
    exact (h.remove name).append hnone ((h.of_find? hfind).inner.table _)
  · cases hopen

theorem allDistinct_of_openItem? (h : AllDistinct members)
    (hopen : openItem? name members = some changed) : AllDistinct changed := by
  rw [openItem?] at hopen
  split at hopen
  · rename_i hfind
    cases hopen
    exact h.append hfind (AllDistinct.nil.items nofun)
  · rename_i finished last hfind
    cases hopen
    have hitems := h.of_find? hfind
    apply h.put
    apply AllDistinct.nil.items
    intro v hv
    rcases List.mem_append.1 hv with hv | hv
    · exact hitems.finished v hv
    · rw [List.mem_singleton.1 hv]
      exact hitems.last.closeAll
  · cases hopen

end Changes

end Node

end GoalProgress.Toml
