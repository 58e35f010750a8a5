import GoalProgress.Bytes

/-!
# Where a search ends

A search finds the place that nothing before it hides. For a byte it is enough that the byte does
not occur before the place, for a byte string that no occurrence starts before it.

## Main definitions

* `Bytes.Clear`: bytes in which no occurrence of a byte string starts.
-/
namespace GoalProgress.Bytes

/-! ## Byte strings -/

/-- No occurrence of `needle` starts in the bytes when `rest` follows them. -/
def Clear (needle : Bytes) : (bs rest : Bytes) → Prop
  | [], _ => True
  | b :: bs, rest => ¬ needle <+: b :: (bs ++ rest) ∧ Clear needle bs rest

theorem clear_append {needle bs cs rest : Bytes} :
    Clear needle (bs ++ cs) rest ↔ Clear needle bs (cs ++ rest) ∧ Clear needle cs rest := by
  induction bs with
  | nil => simp [Clear]
  | cons b bs ih => simp only [List.cons_append, Clear, ih, List.append_assoc, and_assoc]

/-- Occurrences start with the first byte of what is searched for. -/
theorem clear_of_not_mem {n : UInt8} {ns bs : Bytes} (h : n ∉ bs) (rest : Bytes) :
    Clear (n :: ns) bs rest := by
  induction bs with
  | nil => trivial
  | cons b bs ih =>
    refine ⟨?_, ih fun hn => h (List.mem_cons_of_mem b hn)⟩
    intro hprefix
    exact h (by rw [(List.cons_prefix_cons.1 hprefix).1]; exact List.mem_cons_self)

theorem find?_append_of_clear {needle bs rest : Bytes} (h : Clear needle bs rest) :
    find? (bs ++ rest) needle = (find? rest needle).map (· + bs.length) := by
  induction bs with
  | nil => simp
  | cons b bs ih =>
    rw [List.cons_append, find?, if_neg (by simpa using h.1), ih h.2, Option.map_map]
    rfl

/-- **An occurrence that none starts before is the one that is found.** -/
theorem find?_of_clear {needle before rest : Bytes} (h : Clear needle before (needle ++ rest)) :
    find? (before ++ (needle ++ rest)) needle = some before.length := by
  have hfirst : find? (needle ++ rest) needle = some 0 := by
    cases hbs : needle ++ rest with
    | nil => simp [find?, (List.append_eq_nil_iff.1 hbs).1]
    | cons b bs =>
      have hprefix : needle <+: b :: bs := hbs ▸ List.prefix_append needle rest
      rw [find?, if_pos (by simpa using hprefix)]
  rw [find?_append_of_clear h, hfirst]
  simp

/-! ## Single bytes -/

theorem findIdx?_of_not_mem {b : UInt8} {bs : Bytes} (h : b ∉ bs) :
    bs.findIdx? (· == b) = none := by
  rw [List.findIdx?_eq_none_iff]
  intro x hx
  rw [beq_eq_false_iff_ne]
  rintro rfl
  exact h hx

theorem findByte?_append {b : UInt8} {gap : Bytes} (h : b ∉ gap) (before rest : Bytes) :
    findByte? (before ++ (gap ++ b :: rest)) b before.length =
      some (before.length + gap.length) := by
  rw [findByte?, List.drop_left, List.findIdx?_append, findIdx?_of_not_mem h, List.findIdx?_cons]
  simp [Nat.add_comm]

theorem findByte?_of_eq {b : UInt8} {bs before gap : Bytes} (hgap : b ∉ gap) (rest : Bytes)
    (h : bs = before ++ (gap ++ b :: rest)) :
    findByte? bs b before.length = some (before ++ gap).length := by
  rw [h, findByte?_append hgap, List.length_append]

/-- A byte is found at the first position from the start on at which it stands. -/
theorem findByte?_eq_some_iff {b : UInt8} {bs : Bytes} {start i : Nat} :
    findByte? bs b start = some i ↔
      start ≤ i ∧ bs[i]? = some b ∧ ∀ j, start ≤ j → j < i → bs[j]? ≠ some b := by
  have hfirst (k : Nat) : (bs.drop start).findIdx? (· == b) = some k ↔
      bs[start + k]? = some b ∧ ∀ j < k, bs[start + j]? ≠ some b := by
    simp only [List.findIdx?_eq_some_iff_getElem, ← List.getElem?_drop]
    constructor
    · rintro ⟨hlt, hfound, hleast⟩
      refine ⟨by rw [List.getElem?_eq_getElem hlt, beq_iff_eq.1 hfound], fun j hj h => ?_⟩
      obtain ⟨_, hj'⟩ := List.getElem?_eq_some_iff.1 h
      exact hleast j hj (beq_iff_eq.2 hj')
    · rintro ⟨hfound, hleast⟩
      obtain ⟨hlt, hk⟩ := List.getElem?_eq_some_iff.1 hfound
      refine ⟨hlt, beq_iff_eq.2 hk, fun j hj h => hleast j hj ?_⟩
      rw [List.getElem?_eq_getElem (Nat.lt_trans hj hlt), beq_iff_eq.1 h]
  rw [findByte?, Option.map_eq_some_iff]
  simp only [hfirst]
  constructor
  · rintro ⟨k, ⟨hfound, hleast⟩, rfl⟩
    refine ⟨Nat.le_add_left _ _, Nat.add_comm start k ▸ hfound, fun j hj hlt => ?_⟩
    obtain ⟨l, rfl⟩ := Nat.exists_eq_add_of_le hj
    exact hleast l (by omega)
  · rintro ⟨hle, hfound, hleast⟩
    obtain ⟨k, rfl⟩ := Nat.exists_eq_add_of_le hle
    exact ⟨k, ⟨hfound, fun j hj => hleast (start + j) (by omega) (by omega)⟩, Nat.add_comm k start⟩

/-- A byte that is found stands behind as many bytes as its position says. -/
theorem exists_of_findByte? {b : UInt8} {bs : Bytes} {start i : Nat}
    (h : findByte? bs b start = some i) :
    ∃ rest, bs = bs.take i ++ b :: rest ∧ (bs.take i).length = i := by
  obtain ⟨_, hfound, _⟩ := findByte?_eq_some_iff.1 h
  obtain ⟨hlt, hi⟩ := List.getElem?_eq_some_iff.1 hfound
  refine ⟨bs.drop (i + 1), ?_, List.length_take_of_le (Nat.le_of_lt hlt)⟩
  rw [← hi, ← List.drop_eq_getElem_cons hlt, List.take_append_drop]

theorem lastByte?_append {b : UInt8} {after : Bytes} (h : b ∉ after) (before : Bytes) :
    lastByte? (before ++ b :: after) b = some before.length := by
  have hreverse : b ∉ after.reverse := fun hb => h (List.mem_reverse.1 hb)
  rw [lastByte?, List.reverse_append, List.reverse_cons, List.append_assoc, List.findIdx?_append,
    findIdx?_of_not_mem hreverse, List.singleton_append, List.findIdx?_cons]
  simp

theorem lastByte?_eq_none_iff {b : UInt8} {bs : Bytes} : lastByte? bs b = none ↔ b ∉ bs := by
  rw [lastByte?, Option.map_eq_none_iff, List.findIdx?_eq_none_iff]
  simp only [List.mem_reverse, beq_eq_false_iff_ne]
  constructor
  · intro h hb
    exact h b hb rfl
  · rintro h x hx rfl
    exact h hx

/-- The bytes around the last occurrence of a byte. -/
theorem exists_last {b : UInt8} {bs : Bytes} (h : b ∈ bs) :
    ∃ before after, bs = before ++ b :: after ∧ b ∉ after := by
  obtain ⟨after, before, hreverse, hafter⟩ := List.eq_append_cons_of_mem (List.mem_reverse.2 h)
  refine ⟨before.reverse, after.reverse, ?_, by simpa using hafter⟩
  rw [← List.reverse_reverse bs, hreverse]
  simp

theorem lastInk?_append_singleton {b : UInt8} (h : Byte.isBlank b = false) (bs : Bytes) :
    lastInk? (bs ++ [b]) = some b := by
  simp [lastInk?, firstInk?, h]

theorem lastInk?_append (bs cs : Bytes) : lastInk? (bs ++ cs) = (lastInk? cs).or (lastInk? bs) := by
  rw [lastInk?, firstInk?, List.reverse_append, List.find?_append]
  rfl

theorem mem_of_lastInk? {bs : Bytes} {b : UInt8} (h : lastInk? bs = some b) : b ∈ bs :=
  List.mem_reverse.1 (List.mem_of_find?_eq_some h)

end GoalProgress.Bytes
