import GoalProgress.Config
import GoalProgress.Proofs.Program
import GoalProgress.Proofs.Toml.Sorted

/-!
# Decoding passes over keys that are not known

What is decoded from a table is settled by the values of the known keys, in whatever order they are
written. It can therefore be told from what is left of the table when everything else is taken away.

## Main definitions

* `Config.recognized`: the table without the keys that are not known.
* `Config.Accepts`: a table names the supported version and is decoded as a configuration.
-/
namespace GoalProgress

open Toml (Value Table)

namespace Config

/-! ## Steps that fill two fields -/

/-- A step that decodes the values of two names into two fields and passes over other names. -/
structure Fills {ε σ α β : Type} (step : σ → String × Value → Except ε σ) (mk : α → β → σ)
    (first second : String) (decodeFirst : Value → Except ε α) (decodeSecond : Value → Except ε β) :
    Prop where
  ne : first ≠ second
  step_first : ∀ a b v, step (mk a b) (first, v) = (decodeFirst v).map (mk · b)
  step_second : ∀ a b v, step (mk a b) (second, v) = (decodeSecond v).map (mk a)
  step_other : ∀ s name v, name ≠ first → name ≠ second → step s (name, v) = .ok s

section Fills

variable {ε σ α β : Type} {step : σ → String × Value → Except ε σ} {mk : α → β → σ}
  {first second : String} {decodeFirst : Value → Except ε α} {decodeSecond : Value → Except ε β}
  {t t' : Table}

/-- The values of the two names settle what is decoded. -/
theorem Fills.toOption_foldlM (h : Fills step mk first second decodeFirst decodeSecond)
    (ht : t.names.Nodup) (a : α) (b : β) :
    (t.foldlM step (mk a b)).toOption =
      ((t.get? first).elim (some a) fun v => (decodeFirst v).toOption).bind fun a =>
        ((t.get? second).elim (some b) fun v => (decodeSecond v).toOption).map (mk a) := by
  induction t generalizing a b with
  | nil => rfl
  | cons m t ih =>
    obtain ⟨name, v⟩ := m
    rw [Table.names, List.map_cons, List.nodup_cons] at ht
    -- The name does not occur again, so that its field is settled here.
    have hnone : Table.get? t name = none := Table.get?_eq_none_iff.2 ht.1
    rw [List.foldlM_cons, Table.get?_cons, Table.get?_cons]
    by_cases hfirst : name = first
    · subst hfirst
      rw [h.step_first, if_pos rfl, if_neg h.ne, Option.elim_some]
      cases decodeFirst v with
      | error e => rfl
      | ok a' =>
        have hrest := ih ht.2 a' b
        rw [hnone] at hrest
        exact hrest
    · by_cases hsecond : name = second
      · subst hsecond
        rw [h.step_second, if_pos rfl, if_neg hfirst, Option.elim_some]
        cases decodeSecond v with
        | error e =>
          cases (Table.get? t first).elim (some a) (fun v => (decodeFirst v).toOption) <;> rfl
        | ok b' =>
          have hrest := ih ht.2 a b'
          rw [hnone] at hrest
          exact hrest
      · rw [h.step_other _ _ _ hfirst hsecond, if_neg hfirst, if_neg hsecond]
        exact ih ht.2 a b

/-- Tables in which the two names have values that are decoded alike are decoded alike. -/
theorem Fills.toOption_congr (h : Fills step mk first second decodeFirst decodeSecond)
    (ht : t.names.Nodup) (ht' : t'.names.Nodup) {f g : Value → Value}
    (hfirst : t'.get? first = (t.get? first).map f)
    (hsecond : t'.get? second = (t.get? second).map g)
    (hf : ∀ v ∈ t.get? first, (decodeFirst (f v)).toOption = (decodeFirst v).toOption)
    (hg : ∀ v ∈ t.get? second, (decodeSecond (g v)).toOption = (decodeSecond v).toOption)
    (a : α) (b : β) :
    (t'.foldlM step (mk a b)).toOption = (t.foldlM step (mk a b)).toOption := by
  have hleft : (t'.get? first).elim (some a) (fun v => (decodeFirst v).toOption) =
      (t.get? first).elim (some a) fun v => (decodeFirst v).toOption := by
    rw [hfirst]
    cases hv : t.get? first with
    | none => rfl
    | some v => exact hf v hv
  have hright : (t'.get? second).elim (some b) (fun v => (decodeSecond v).toOption) =
      (t.get? second).elim (some b) fun v => (decodeSecond v).toOption := by
    rw [hsecond]
    cases hv : t.get? second with
    | none => rfl
    | some v => exact hg v hv
  rw [h.toOption_foldlM ht, h.toOption_foldlM ht', hleft]
  simp only [hright]

end Fills

theorem fills_cache : Fills decodeCacheMember CacheConfig.mk "definitions" "snapshot"
    (fun v => (decodePath v).map some) (fun v => (decodePath v).map some) where
  ne := by decide
  step_first a b v := by cases v <;> rfl
  step_second a b v := by cases v <;> rfl
  step_other s name v hfirst hsecond := by simp [decodeCacheMember]

theorem fills_sizing : Fills decodeSizingMember Sizing.mk "envelope_overhead" "goal_overhead"
    decodeSize decodeSize where
  ne := by decide
  step_first a b v := rfl
  step_second a b v := rfl
  step_other s name v hfirst hsecond := by simp [decodeSizingMember]

theorem fills_config :
    Fills decodeSection Config.mk "cache" "response" decodeCache decodeSizing where
  ne := by decide
  step_first a b v := rfl
  step_second a b v := rfl
  step_other s name v hfirst hsecond := by simp [decodeSection]

/-! ## Sections -/

theorem decodePath_sorted (v : Value) :
    ((decodePath v.sorted).map some).toOption = ((decodePath v).map some).toOption := by
  cases v <;> rfl

theorem decodeSize_sorted (v : Value) :
    (decodeSize v.sorted).toOption = (decodeSize v).toOption := by
  cases v <;> rfl

/-- The section without the keys that are not known, if it is a table. -/
def recognizedIn (keys : List String) : Value → Value
  | .table members => .table (members.filter fun m => keys.contains m.1)
  | v => v

theorem names_zip_sublist (keys : List String) (items : List Value) :
    (Table.names (keys.zip items)).Sublist keys := by
  induction keys generalizing items with
  | nil => exact .slnil
  | cons key keys ih =>
    cases items with
    | nil => exact List.nil_sublist _
    | cons v items => exact (ih items).cons_cons key

/-- A section is decoded from what is left of it when keys that are not known are taken away and
its members are sorted. -/
theorem Fills.toOption_section {σ α β : Type}
    {step : σ → String × Value → Except Mismatch σ} {mk : α → β → σ} {first second : String}
    {decodeFirst : Value → Except Mismatch α} {decodeSecond : Value → Except Mismatch β}
    (h : Fills step mk first second decodeFirst decodeSecond)
    (hfirst : ∀ v, (decodeFirst v.sorted).toOption = (decodeFirst v).toOption)
    (hsecond : ∀ v, (decodeSecond v.sorted).toOption = (decodeSecond v).toOption)
    (expected : String) {v : Value} (hv : v.Distinct) (a : α) (b : β) :
    (sectionMembers expected [first, second] (recognizedIn [first, second] v).sorted >>=
        fun members => members.foldlM step (mk a b)).toOption =
      (sectionMembers expected [first, second] v >>=
        fun members => members.foldlM step (mk a b)).toOption := by
  have hnodup : [first, second].Nodup := by simp [h.ne]
  cases hv with
  | text | integer | real | boolean | moment => rfl
  | @array items values =>
    -- An array gives its items to the keys in their order, sorted or not.
    have hnames := hnodup.sublist (names_zip_sublist [first, second] items)
    have hmap : [first, second].zip (Toml.sortedItems items) =
        ([first, second].zip items).map fun m => (m.1, m.2.sorted) := by
      rw [Toml.sortedItems_eq_map, List.zip_map_right]
      rfl
    refine h.toOption_congr hnames ?_ ?_ ?_ (fun v _ => hfirst v) (fun v _ => hsecond v) a b
    · rw [hmap]
      exact (Table.names_map (fun _ => Value.sorted) _).symm ▸ hnames
    · rw [hmap]
      exact Table.get?_map (fun _ => Value.sorted) _ _
    · rw [hmap]
      exact Table.get?_map (fun _ => Value.sorted) _ _
  | @table members names values =>
    have hnames : (Table.names (members.filter fun m => [first, second].contains m.1)).Nodup :=
      names.sublist (List.filter_sublist.map _)
    have hget (name : String) (hname : [first, second].contains name) :
        Table.get? ((Table.sorted (members.filter fun m => [first, second].contains m.1)).filter
            fun m => [first, second].contains m.1) name =
          (Table.get? (members.filter fun m => [first, second].contains m.1) name).map
            Value.sorted := by
      rw [Table.get?_filter, if_pos hname, Table.get?_sorted hnames]
    refine h.toOption_congr hnames ?_ (hget first (by simp)) (hget second (by simp))
      (fun v _ => hfirst v) (fun v _ => hsecond v) a b
    exact (Table.nodup_names_sorted hnames).sublist (List.filter_sublist.map _)

theorem decodeCache_recognized {v : Value} (hv : v.Distinct) :
    (decodeCache (recognizedIn cacheKeys v).sorted).toOption = (decodeCache v).toOption :=
  fills_cache.toOption_section decodePath_sorted decodePath_sorted "struct CacheConfig" hv none none

theorem decodeSizing_recognized {v : Value} (hv : v.Distinct) :
    (decodeSizing (recognizedIn responseKeys v).sorted).toOption = (decodeSizing v).toOption :=
  fills_sizing.toOption_section decodeSize_sorted decodeSize_sorted "struct SizingConfig" hv _ _

/-! ## Whole tables -/

/-- The value of a key at the top level without keys that are not known. -/
def recognizedAt (name : String) (v : Value) : Value :=
  if name = "cache" then recognizedIn cacheKeys v
  else if name = "response" then recognizedIn responseKeys v
  else v

/-- The table without the keys that are not known, at the top level and in the sections. -/
def recognized (t : Table) : Table :=
  (t.filter fun m => knownKeys.contains m.1).map fun m => (m.1, recognizedAt m.1 m.2)

theorem get?_recognized (t : Table) (name : String) :
    (recognized t).get? name =
      if knownKeys.contains name then (t.get? name).map (recognizedAt name) else none := by
  rw [recognized, Table.get?_map recognizedAt, Table.get?_filter]
  split <;> rfl

theorem nodup_names_recognized {t : Table} (h : t.names.Nodup) : (recognized t).names.Nodup := by
  rw [recognized, Table.names_map recognizedAt]
  exact h.sublist (List.filter_sublist.map _)

/-- Two tables are the same without unknown keys if every other name has the same value in both. -/
theorem sorted_recognized_eq_iff {t t' : Table} (h : (Value.table t).Distinct)
    (h' : (Value.table t').Distinct) :
    (recognized t).sorted = (recognized t').sorted ↔
      ∀ name, ((recognized t).get? name).map Value.sorted =
        ((recognized t').get? name).map Value.sorted := by
  cases h with
  | table names _ =>
    cases h' with
    | table names' _ =>
      exact Table.sorted_eq_iff (nodup_names_recognized names) (nodup_names_recognized names')

theorem get?_sorted_recognized {t : Table} (h : t.names.Nodup) {name : String}
    (hname : knownKeys.contains name = true) :
    (recognized t).sorted.get? name = (t.get? name).map fun v => (recognizedAt name v).sorted := by
  rw [Table.get?_sorted (nodup_names_recognized h), get?_recognized, if_pos hname, Option.map_map]
  rfl

/-- A table names the version that is supported and is decoded as a configuration. -/
def Accepts (t : Table) (config : Config) : Prop :=
  t.get? "version" = some (.integer supportedVersion) ∧ decode t = .ok config

theorem sorted_eq_integer_iff {v : Value} {n : Int} : v.sorted = .integer n ↔ v = .integer n := by
  cases v <;> simp [Value.sorted]

/-- **What is left of a table without unknown keys, sorted, is decoded as the table is.** -/
theorem accepts_recognized_iff {t : Table} (h : (Value.table t).Distinct) {config : Config} :
    Accepts (recognized t).sorted config ↔ Accepts t config := by
  cases h with
  | table names values =>
    have hversion : (recognized t).sorted.get? "version" = some (.integer supportedVersion) ↔
        t.get? "version" = some (.integer supportedVersion) := by
      rw [get?_sorted_recognized names (by decide)]
      cases t.get? "version" with
      | none => simp
      | some v =>
        have hat : recognizedAt "version" v = v := by simp [recognizedAt]
        rw [Option.map_some, hat, Option.some.injEq, Option.some.injEq, sorted_eq_integer_iff]
    have hdecode : (decode (recognized t).sorted).toOption = (decode t).toOption := by
      have hnames := Table.nodup_names_sorted (nodup_names_recognized names)
      refine fills_config.toOption_congr names hnames
        (get?_sorted_recognized names (by decide)) (get?_sorted_recognized names (by decide)) ?_ ?_
        {} {}
      · intro v hv
        exact decodeCache_recognized (values _ (Table.mem_of_get? hv))
      · intro v hv
        exact decodeSizing_recognized (values _ (Table.mem_of_get? hv))
    rw [Accepts, Accepts, hversion, ← toOption_eq_some_iff, ← toOption_eq_some_iff, hdecode]

/-- Tables that differ only in keys that are not known are accepted as the same configurations. -/
theorem accepts_congr {t t' : Table} (h : (Value.table t).Distinct) (h' : (Value.table t').Distinct)
    (heq : (recognized t).sorted = (recognized t').sorted) (config : Config) :
    Accepts t config ↔ Accepts t' config := by
  rw [← accepts_recognized_iff h, heq, accepts_recognized_iff h']

end Config

end GoalProgress
