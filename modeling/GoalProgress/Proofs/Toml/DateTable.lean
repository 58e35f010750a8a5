import GoalProgress.Proofs.Program
import GoalProgress.Proofs.Toml.Sorted
import GoalProgress.Toml.DateTable

/-!
# Which tables are taken for dates

A table whose first name is the mark of dates has to be a date, wherever it stands; otherwise the
whole value is refused. What stands inside a date is not looked at.

## Main definitions

* `Value.Meets`: a table is met in a value.
* `Value.DenotesDate`: what has to stand under the mark of dates.
* `Value.Genuine`: every table that has the form of a date is one.
-/
namespace GoalProgress.Toml

/-- A table is met in a value. What stands behind the mark of a date is not. -/
inductive Value.Meets : Value → Table → Prop where
  | self (members : List (String × Value)) : Meets (.table members) members
  | item {items : List Value} {v : Value} {t : Table} (hv : v ∈ items) (h : Meets v t) :
    Meets (.array items) t
  | member {members : List (String × Value)} {m : String × Value} {t : Table}
    (hmark : marked? members = none) (hm : m ∈ members) (h : Meets m.2 t) : Meets (.table members) t

/-- A value is the text of a date, as the mark requires it. -/
def Value.DenotesDate (v : Value) : Prop := ∃ s, v = .text s ∧ Moment.isMoment s = true

/-- A table in the form of a date is one, and has no further members if it has to stand `alone`. -/
def Table.Genuine (alone : Bool) (t : Table) : Prop :=
  ∀ v others, marked? t = some (v, others) →
    v.DenotesDate ∧ (alone = true → others = [])

/-- Every table in a value that has the form of a date is one. -/
def Value.Genuine (alone : Bool) (v : Value) : Prop := ∀ t, v.Meets t → t.Genuine alone

section Genuine

variable {alone : Bool} {members others : List (String × Value)} {v : Value}

theorem Table.genuine_of_not_marked (h : marked? members = none) :
    Table.Genuine alone members := by
  intro v others hmark
  rw [h] at hmark
  cases hmark

theorem genuine_array_iff {items : List Value} :
    (Value.array items).Genuine alone ↔ ∀ v ∈ items, v.Genuine alone := by
  constructor
  · intro h v hv t ht
    exact h t (.item hv ht)
  · intro h t ht
    cases ht with
    | item hv ht => exact h _ hv t ht

theorem genuine_table_iff (hmark : marked? members = none) :
    (Value.table members).Genuine alone ↔ ∀ m ∈ members, m.2.Genuine alone := by
  constructor
  · intro h m hm t ht
    exact h t (.member hmark hm ht)
  · intro h t ht
    cases ht with
    | self => exact Table.genuine_of_not_marked hmark
    | member _ hm ht => exact h _ hm t ht

theorem genuine_marked_iff (hmark : marked? members = some (v, others)) :
    (Value.table members).Genuine alone ↔
      v.DenotesDate ∧ (alone = true → others = []) := by
  constructor
  · intro h
    exact h members (.self members) v others hmark
  · intro h t ht
    cases ht with
    | self =>
      intro w behind hw
      rw [hmark] at hw
      cases hw
      exact h
    | member hnone _ _ =>
      rw [hmark] at hnone
      cases hnone

theorem isOk_readMark : (readMark v).isOk = true ↔ v.DenotesDate := by
  cases v with
  | text s =>
    rw [readMark]
    by_cases hs : Moment.isMoment s = true
    · simp [Value.DenotesDate, hs, Except.isOk, Except.toBool]
    · simp [Value.DenotesDate, hs, Except.isOk, Except.toBool]
  | _ => simp [Value.DenotesDate, readMark, Except.isOk, Except.toBool]

theorem isOk_readMarked :
    (readMarked alone v others).isOk = true ↔
      v.DenotesDate ∧ (alone = true → others = []) := by
  rw [← isOk_readMark, readMarked]
  cases readMark v with
  | error fault => simp [Except.isOk, Except.toBool, bind, Except.bind]
  | ok date =>
    cases alone <;> cases others <;>
      simp [Except.isOk, Except.toBool, bind, Except.bind, pure, Except.pure]

theorem eq_moment_of_readMarked {date : Value} (h : readMarked alone v others = .ok date) :
    date = .moment := by
  obtain ⟨found, hfound, h⟩ := bind_eq_ok_iff.1 h
  have hdate : date = found := by
    split at h <;> cases h
    rfl
  rw [hdate]
  cases v with
  | text s =>
    rw [readMark] at hfound
    split at hfound <;> cases hfound
    rfl
  | _ => cases hfound

theorem eq_cons_of_marked? (h : marked? members = some (v, others)) :
    members = (dateMark, v) :: others := by
  cases members with
  | nil => cases h
  | cons m members =>
    rw [marked?] at h
    split at h
    · rename_i hname
      cases h
      rw [← hname]
    · cases h

end Genuine

/-! ## Values without a fault -/

theorem isOk_itemsWithDates_cons (alone : Bool) (v : Value) (items : List Value) :
    (itemsWithDates alone (v :: items)).isOk =
      ((v.withDates alone).isOk && (itemsWithDates alone items).isOk) := by
  rw [itemsWithDates]
  cases v.withDates alone <;> cases itemsWithDates alone items <;> rfl

theorem isOk_membersWithDates_cons (alone : Bool) (m : String × Value)
    (members : List (String × Value)) :
    (membersWithDates alone (m :: members)).isOk =
      ((m.2.withDates alone).isOk && (membersWithDates alone members).isOk) := by
  rw [membersWithDates]
  cases m.2.withDates alone <;> cases membersWithDates alone members <;> rfl

mutual

/-- **A value has no fault exactly if every table in the form of a date is one.** -/
theorem Value.isOk_withDates (alone : Bool) : (v : Value) →
    ((v.withDates alone).isOk = true ↔ v.Genuine alone)
  | .text _ | .integer _ | .real _ | .boolean _ | .moment =>
    iff_of_true rfl fun _ h => nomatch h
  | .array items => by
    rw [genuine_array_iff, ← isOk_itemsWithDates, Value.withDates, isOk_map]
  | .table members => by
    rw [Value.withDates]
    cases hmark : marked? members with
    | none => rw [genuine_table_iff hmark, ← isOk_membersWithDates, isOk_map]
    | some entry => rw [genuine_marked_iff hmark, ← isOk_readMarked]

theorem isOk_itemsWithDates (alone : Bool) : (items : List Value) →
    ((itemsWithDates alone items).isOk = true ↔ ∀ v ∈ items, v.Genuine alone)
  | [] => iff_of_true rfl nofun
  | v :: items => by
    rw [List.forall_mem_cons, ← Value.isOk_withDates, ← isOk_itemsWithDates,
      isOk_itemsWithDates_cons, Bool.and_eq_true]

theorem isOk_membersWithDates (alone : Bool) : (members : List (String × Value)) →
    ((membersWithDates alone members).isOk = true ↔ ∀ m ∈ members, m.2.Genuine alone)
  | [] => iff_of_true rfl nofun
  | m :: members => by
    rw [List.forall_mem_cons, ← Value.isOk_withDates, ← isOk_membersWithDates,
      isOk_membersWithDates_cons, Bool.and_eq_true]

end

/-- Members with their dates have their names, and each the value with its dates. -/
theorem get?_membersWithDates {alone : Bool} {members dated : List (String × Value)}
    (h : membersWithDates alone members = .ok dated) (name : String) :
    (Table.get? dated name).map .ok = (Table.get? members name).map (Value.withDates alone) := by
  induction members generalizing dated with
  | nil =>
    cases h
    rfl
  | cons m members ih =>
    obtain ⟨v, hv, h⟩ := bind_eq_ok_iff.1 h
    obtain ⟨rest, hrest, h⟩ := bind_eq_ok_iff.1 h
    cases h
    rw [Table.get?_cons, Table.get?_cons]
    by_cases hname : m.1 = name
    · rw [if_pos hname, if_pos hname, Option.map_some, Option.map_some, hv]
    · rw [if_neg hname, if_neg hname, ih hrest]

theorem names_membersWithDates {alone : Bool} {members dated : List (String × Value)}
    (h : membersWithDates alone members = .ok dated) :
    Table.names dated = Table.names members := by
  induction members generalizing dated with
  | nil =>
    cases h
    rfl
  | cons m members ih =>
    obtain ⟨v, hv, h⟩ := bind_eq_ok_iff.1 h
    obtain ⟨rest, hrest, h⟩ := bind_eq_ok_iff.1 h
    cases h
    have hnames := ih hrest
    rw [Table.names, Table.names] at hnames
    rw [Table.names, Table.names, List.map_cons, List.map_cons, hnames]

end GoalProgress.Toml
