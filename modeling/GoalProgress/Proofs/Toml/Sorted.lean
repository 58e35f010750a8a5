import GoalProgress.Proofs.Toml.Distinct

/-!
# The same table written in another order

A table says which value a name has; in which order the names are written plays no role. Two tables
are the same if they become equal when the members of all tables in them are sorted by name. Dates
are not told apart, and neither are numbers that are no integers.

## Main definitions

* `Value.sorted`, `Table.sorted`: a value and a table with the members in the order of their names.
-/
namespace GoalProgress.Toml

/-- The members in the order of their names. -/
def Table.byName (t : Table) : Table := t.mergeSort fun a b => decide (a.1 ≤ b.1)

mutual

/-- The value with the members of every table in the order of their names, and without the numbers
that are no integers. -/
def Value.sorted : Value → Value
  | .real _ => .real 0
  | .array items => .array (sortedItems items)
  | .table members => .table (Table.byName (sortedMembers members))
  | v => v

/-- The items of an array, each with its members sorted. -/
def sortedItems : List Value → List Value
  | [] => []
  | v :: items => v.sorted :: sortedItems items

/-- The members of a table in their order, each with its own members sorted. -/
def sortedMembers : List (String × Value) → List (String × Value)
  | [] => []
  | (name, v) :: members => (name, v.sorted) :: sortedMembers members

end

/-- The table with the members of every table in the order of their names. -/
def Table.sorted (t : Table) : Table := Table.byName (sortedMembers t)

theorem sortedItems_eq_map (items : List Value) : sortedItems items = items.map Value.sorted := by
  induction items with
  | nil => rfl
  | cons v items ih => rw [sortedItems, ih, List.map_cons]

theorem sortedMembers_eq_map (members : List (String × Value)) :
    sortedMembers members = members.map fun m => (m.1, m.2.sorted) := by
  induction members with
  | nil => rfl
  | cons m members ih => rw [sortedMembers, ih, List.map_cons]

/-- What is sorted by a text is in the order of these texts. -/
theorem pairwise_le_mergeSort {α : Type} (key : α → String) (as : List α) :
    (as.mergeSort fun a b => decide (key a ≤ key b)).Pairwise fun a b => key a ≤ key b := by
  refine (List.pairwise_mergeSort ?_ ?_ as).imp of_decide_eq_true
  · intro a b c hab hbc
    exact decide_eq_true (String.le_trans (of_decide_eq_true hab) (of_decide_eq_true hbc))
  · intro a b
    simpa using String.le_total (key a) (key b)

/-! ## Values of names -/

namespace Table

variable {t t' : Table} {name : String} {v : Value}

theorem get?_cons (m : String × Value) (t : Table) (name : String) :
    get? (m :: t) name = if m.1 = name then some m.2 else t.get? name := by
  rw [get?, List.lookup_cons]
  by_cases hname : m.1 = name
  · simp [hname]
  · have hbeq : (name == m.1) = false := beq_eq_false_iff_ne.2 (Ne.symm hname)
    rw [hbeq, if_neg hname]
    rfl

theorem get?_eq_none_iff : t.get? name = none ↔ name ∉ t.names := by
  induction t with
  | nil => simp [get?, names]
  | cons m t ih =>
    rw [get?_cons, names, List.map_cons, List.mem_cons]
    by_cases hname : m.1 = name
    · simp [hname]
    · rw [if_neg hname, ih, names]
      simp [Ne.symm hname]

theorem mem_of_get? (h : t.get? name = some v) : (name, v) ∈ t := by
  obtain ⟨front, back, rfl, -⟩ := List.lookup_eq_some_iff.1 h
  simp

/-- The value of a name is the one that is written behind it. -/
theorem get?_eq_some_iff (h : t.names.Nodup) : t.get? name = some v ↔ (name, v) ∈ t := by
  refine ⟨mem_of_get?, ?_⟩
  intro hmem
  induction t with
  | nil => cases hmem
  | cons m t ih =>
    rw [names, List.map_cons, List.nodup_cons] at h
    rw [get?_cons]
    rcases List.mem_cons.1 hmem with rfl | hmem
    · rw [if_pos rfl]
    · have hname : m.1 ≠ name := by
        intro heq
        exact h.1 (List.mem_map.2 ⟨(name, v), hmem, heq.symm⟩)
      rw [if_neg hname]
      exact ih h.2 hmem

theorem get?_of_perm (h : t.Perm t') (ht : t.names.Nodup) : t.get? name = t'.get? name := by
  have ht' : t'.names.Nodup := (h.map _).nodup_iff.1 ht
  apply Option.ext
  intro v
  rw [get?_eq_some_iff ht, get?_eq_some_iff ht', h.mem_iff]

theorem get?_map (f : String → Value → Value) (t : Table) (name : String) :
    get? (t.map fun m => (m.1, f m.1 m.2)) name = (t.get? name).map (f name) := by
  induction t with
  | nil => rfl
  | cons m t ih =>
    rw [List.map_cons, get?_cons, get?_cons, ih]
    by_cases hname : m.1 = name
    · simp [hname]
    · simp [hname]

theorem get?_filter (p : String → Bool) (t : Table) (name : String) :
    get? (t.filter (p ·.1)) name = if p name then t.get? name else none := by
  induction t with
  | nil => simp [get?]
  | cons m t ih =>
    rw [List.filter_cons]
    by_cases hname : m.1 = name
    · by_cases hp : p name = true
      · simp [get?_cons, hname, hp]
      · simpa [get?_cons, hname, hp] using ih
    · by_cases hp : p m.1 = true
      · simpa [get?_cons, hname, hp] using ih
      · simpa [get?_cons, hname, hp] using ih

theorem names_map (f : String → Value → Value) (t : Table) :
    names (t.map fun m => (m.1, f m.1 m.2)) = t.names := by
  rw [names, names, List.map_map]
  rfl

/-! ## Sorted tables -/

theorem nodup_of_names (h : t.names.Nodup) : t.Nodup := by
  rw [names, List.Nodup, List.pairwise_map] at h
  exact h.imp fun hname heq => hname (congrArg Prod.fst heq)

theorem byName_perm (t : Table) : t.byName.Perm t := List.mergeSort_perm _ _

theorem byName_pairwise (t : Table) : t.byName.Pairwise fun a b => a.1 ≤ b.1 :=
  pairwise_le_mergeSort (·.1) t

theorem names_sorted_perm (t : Table) : t.sorted.names.Perm t.names := by
  have hnames : names (sortedMembers t) = t.names := by
    rw [sortedMembers_eq_map]
    exact names_map (fun _ => Value.sorted) t
  exact hnames ▸ (byName_perm (sortedMembers t)).map _

theorem nodup_names_sorted (h : t.names.Nodup) : t.sorted.names.Nodup :=
  (names_sorted_perm t).nodup_iff.2 h

/-- Sorting changes the value of a name only inside. -/
theorem get?_sorted (h : t.names.Nodup) (name : String) :
    t.sorted.get? name = (t.get? name).map Value.sorted := by
  rw [sorted, get?_of_perm (byName_perm (sortedMembers t)) (nodup_names_sorted h),
    sortedMembers_eq_map]
  exact get?_map (fun _ => Value.sorted) t name

/-- **Two tables are the same if every name has the same value in both.** -/
theorem sorted_eq_iff (h : t.names.Nodup) (h' : t'.names.Nodup) :
    t.sorted = t'.sorted ↔
      ∀ name, (t.get? name).map Value.sorted = (t'.get? name).map Value.sorted := by
  constructor
  · intro heq name
    rw [← get?_sorted h, ← get?_sorted h', heq]
  · intro heq
    have hsorted := nodup_names_sorted h
    have hsorted' := nodup_names_sorted h'
    have hmem (m : String × Value) : m ∈ t.sorted ↔ m ∈ t'.sorted := by
      rw [← get?_eq_some_iff hsorted, ← get?_eq_some_iff hsorted', get?_sorted h, get?_sorted h',
        heq]
    have hperm : t.sorted.Perm t'.sorted :=
      (List.perm_ext_iff_of_nodup (nodup_of_names hsorted) (nodup_of_names hsorted')).2 hmem
    refine List.Perm.eq_of_pairwise ?_ (byName_pairwise _) (byName_pairwise _) hperm
    intro a b ha hb hab hba
    have hname : a.1 = b.1 := String.le_antisymm hab hba
    have hvalue := (get?_eq_some_iff hsorted).2 ha
    rw [hname, (get?_eq_some_iff hsorted).2 ((hmem b).2 hb)] at hvalue
    exact Prod.ext hname (Option.some.inj hvalue).symm

end Table

end GoalProgress.Toml
