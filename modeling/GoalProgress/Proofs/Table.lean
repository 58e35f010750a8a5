import Std.Data.ExtTreeMap

/-!
# Tables in which the last entry wins

A table that is filled entry by entry holds, for every key, the value of the last entry with that
key. Lookups of progress and caches of documents are such tables.

## Main definitions

* `lastWith`: the last entry with a given key.
-/
namespace GoalProgress

variable {α β κ σ : Type} [DecidableEq κ] {key : α → κ} {k : κ}

/-- The last entry with a given key. -/
def lastWith (key : α → κ) (k : κ) (as : List α) : Option α := (as.filter (key · = k)).getLast?

theorem lastWith_cons (a : α) (as : List α) :
    lastWith key k (a :: as) = (lastWith key k as).or (if key a = k then some a else none) := by
  by_cases h : key a = k
  · rw [lastWith, List.filter_cons_of_pos (by simpa using h), List.getLast?_cons, if_pos h,
      lastWith]
    cases (as.filter (key · = k)).getLast? <;> rfl
  · rw [lastWith, List.filter_cons_of_neg (by simpa using h), if_neg h, Option.or_none, lastWith]

theorem lastWith_append (as bs : List α) :
    lastWith key k (as ++ bs) = (lastWith key k bs).or (lastWith key k as) := by
  rw [lastWith, List.filter_append, List.getLast?_append, lastWith, lastWith]

theorem lastWith_map (f : β → α) (bs : List β) :
    lastWith key k (bs.map f) = (lastWith (fun b => key (f b)) k bs).map f := by
  rw [lastWith, List.filter_map, List.getLast?_map]
  rfl

theorem lastWith_eq_some {as : List α} {a : α} (h : lastWith key k as = some a) :
    a ∈ as ∧ key a = k := by
  have hmem := List.mem_filter.1 (List.mem_of_getLast? h)
  exact ⟨hmem.1, by simpa using hmem.2⟩

/-- There is an entry with a key exactly if it is the key of one. -/
theorem lastWith_eq_none_iff {as : List α} : lastWith key k as = none ↔ k ∉ as.map key := by
  rw [lastWith, List.getLast?_eq_none_iff, List.filter_eq_nil_iff, List.mem_map]
  constructor
  · rintro h ⟨a, ha, hk⟩
    exact h a ha (by simpa using hk)
  · intro h a ha hk
    exact h ⟨a, ha, by simpa using hk⟩

/-- If no two entries have the same key, every entry is the last one with its key. -/
theorem lastWith_of_nodup {as : List α} (h : (as.map key).Nodup) {a : α} (ha : a ∈ as) :
    lastWith key (key a) as = some a := by
  induction as with
  | nil => cases ha
  | cons b as ih =>
    rw [List.map_cons, List.nodup_cons] at h
    rw [lastWith_cons]
    rcases List.mem_cons.1 ha with rfl | ha
    · rw [lastWith_eq_none_iff.2 h.1, if_pos rfl]
      rfl
    · rw [ih h.2 ha]
      rfl

/-- **The last write wins**, for any table whose writes change the entry of one key only. -/
theorem get_foldl_write {write : σ → α → σ} {value : α → β} {get : σ → κ → Option β}
    (hwrite : ∀ s a k, get (write s a) k = if key a = k then some (value a) else get s k)
    (as : List α) (s : σ) (k : κ) :
    get (as.foldl write s) k = ((lastWith key k as).map value).or (get s k) := by
  induction as generalizing s with
  | nil => rfl
  | cons a as ih =>
    rw [List.foldl_cons, ih, hwrite, lastWith_cons]
    cases lastWith key k as with
    | some b => rfl
    | none => by_cases h : key a = k <;> simp [h]

theorem nodup_keys_toList (m : Std.ExtTreeMap String β) : (m.toList.map (·.1)).Nodup := by
  rw [Std.ExtTreeMap.map_fst_toList_eq_keys]
  exact Std.ExtTreeMap.nodup_keys

/-- A table is filled again from its entries, in whatever order they are listed. -/
theorem foldl_insert_of_perm {m : Std.ExtTreeMap String β} {entries : List (String × β)}
    (h : entries.Perm m.toList) : entries.foldl (fun t e => t.insert e.1 e.2) ∅ = m := by
  have hnodup : (entries.map (·.1)).Nodup := (h.map _).nodup_iff.2 (nodup_keys_toList m)
  have hmem {k : String} {v : β} : (k, v) ∈ entries ↔ m[k]? = some v :=
    h.mem_iff.trans Std.ExtTreeMap.mem_toList_iff_getElem?_eq_some
  have hwrite (t : Std.ExtTreeMap String β) (e : String × β) (k : String) :
      (t.insert e.1 e.2)[k]? = if e.1 = k then some e.2 else t[k]? := by
    simp [Std.ExtTreeMap.getElem?_insert]
  refine Std.ExtTreeMap.ext_getElem? fun k => ?_
  refine (get_foldl_write hwrite entries ∅ k).trans ?_
  rw [Std.ExtTreeMap.getElem?_empty, Option.or_none]
  cases hlast : lastWith (·.1) k entries with
  | some e =>
    obtain ⟨he, rfl⟩ := lastWith_eq_some hlast
    exact (hmem.1 he).symm
  | none =>
    cases hk : m[k]? with
    | none => rfl
    | some v => exact absurd (List.mem_map_of_mem (hmem.2 hk)) (lastWith_eq_none_iff.1 hlast)

/-- If no two entries have the same key, a table with the value of every entry under its key and
nothing else is a list of these entries. -/
theorem toList_perm_of_getElem? {m : Std.ExtTreeMap String β} {entries : List (String × β)}
    (hnodup : (entries.map (·.1)).Nodup)
    (h : ∀ k, m[k]? = (lastWith (·.1) k entries).map (·.2)) : m.toList.Perm entries := by
  have hlist {es : List (String × β)} (hes : (es.map (·.1)).Nodup) : es.Nodup :=
    (List.pairwise_map.1 hes).imp fun hne heq => hne (congrArg Prod.fst heq)
  rw [List.perm_ext_iff_of_nodup (hlist (nodup_keys_toList m)) (hlist hnodup)]
  rintro ⟨k, v⟩
  rw [Std.ExtTreeMap.mem_toList_iff_getElem?_eq_some, h, Option.map_eq_some_iff]
  constructor
  · rintro ⟨e, he, rfl⟩
    obtain ⟨hmem, rfl⟩ := lastWith_eq_some he
    exact hmem
  · intro hmem
    exact ⟨(k, v), lastWith_of_nodup hnodup hmem, rfl⟩

end GoalProgress
