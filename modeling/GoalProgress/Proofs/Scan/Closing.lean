import GoalProgress.Proofs.Scan.Bracket
import GoalProgress.Proofs.Scan.Tree

/-!
# Which bracket closes an array

Whatever the bytes are, the bracket that the search finds is the first one outside string literals
with which as many brackets have been closed as opened. At every byte that the search comes to, the
array is still open: the brackets that are open inside it are counted exactly, and never fewer than
none. In a JSON text the bracket that is found is the last byte of the array.

## Main definitions

* `Scan.netBrackets`: the brackets that are opened, less those that are closed.
* `Scan.ClosesAt`: a closing bracket with which all brackets are closed.
-/
namespace GoalProgress.Scan

open Json

/-! ## Counting brackets -/

/-- What a byte adds to the number of open brackets. -/
def Literal.nesting (s : Literal) (b : UInt8) : Int :=
  if s.isStructural b then
    if b = Byte.openBracket then 1 else if b = Byte.closeBracket then -1 else 0
  else 0

/-- The brackets that are opened outside string literals, less those that are closed. -/
def netBrackets (s : Literal) : Bytes → Int
  | [] => 0
  | b :: bs => s.nesting b + netBrackets (s.next b) bs

theorem Literal.nesting_openBracket {s : Literal} (h : s.isStructural Byte.openBracket = true) :
    s.nesting Byte.openBracket = 1 := by
  rw [nesting, if_pos h, if_pos rfl]

theorem Literal.nesting_closeBracket {s : Literal} (h : s.isStructural Byte.closeBracket = true) :
    s.nesting Byte.closeBracket = -1 := by
  rw [nesting, if_pos h, if_neg (by decide), if_pos rfl]

theorem Literal.nesting_eq_zero {s : Literal} {b : UInt8}
    (h : s.isStructural b = false ∨ (b ≠ Byte.openBracket ∧ b ≠ Byte.closeBracket)) :
    s.nesting b = 0 := by
  rcases h with h | ⟨hopen, hclose⟩
  · rw [nesting, if_neg (Bool.eq_false_iff.1 h)]
  · rw [nesting, if_neg hopen, if_neg hclose, ite_self]

/-! ## From any state -/

/-- From state `s` on, with `depth` brackets open besides that of the array, the byte at position
`i` closes the array. -/
structure Settles (s : Literal) (depth : Nat) (bs : Bytes) (i : Nat) : Prop where
  bracket : bs[i]? = some Byte.closeBracket
  outside : s.after (bs.take i) = .outside
  settled : 1 + depth + netBrackets s (bs.take (i + 1)) = 0

variable {s : Literal} {depth : Nat} {bs : Bytes}

theorem not_settles_nil (i : Nat) : ¬ Settles s depth [] i := by
  intro h
  simpa using h.bracket

/-- Behind the first byte, brackets close the array as they do for a search that starts there. -/
theorem settles_cons_succ_iff {depth' : Nat} {b : UInt8} {rest : Bytes} {i : Nat}
    (hdepth : (depth' : Int) = depth + s.nesting b) :
    Settles s depth (b :: rest) (i + 1) ↔ Settles (s.next b) depth' rest i := by
  have hnet : 1 + (depth : Int) + netBrackets s ((b :: rest).take (i + 1 + 1)) =
      1 + depth' + netBrackets (s.next b) (rest.take (i + 1)) := by
    rw [List.take_succ_cons, netBrackets, hdepth]
    omega
  constructor
  · rintro ⟨hbracket, houtside, hsettled⟩
    exact ⟨hbracket, houtside, hnet ▸ hsettled⟩
  · rintro ⟨hbracket, houtside, hsettled⟩
    exact ⟨hbracket, houtside, hnet ▸ hsettled⟩

/-- **What the search does at one byte**: it ends at a bracket that closes the array, or it goes on
with the number of brackets that are then open. -/
theorem closingFrom_cases (s : Literal) (depth : Nat) (b : UInt8) (rest : Bytes) :
    (Settles s depth (b :: rest) 0 ∧ closingFrom s depth (b :: rest) = some 0) ∨
      ∃ depth' : Nat, (depth' : Int) = depth + s.nesting b ∧
        closingFrom s depth (b :: rest) =
          (closingFrom (s.next b) depth' rest).map (· + 1) := by
  by_cases hclose : s.isStructural b = true ∧ b = Byte.closeBracket
  · obtain ⟨hs, rfl⟩ := hclose
    cases depth with
    | zero =>
      refine .inl ⟨⟨rfl, (Literal.isStructural_iff.1 hs).1, ?_⟩, ?_⟩
      · rw [List.take_succ_cons, netBrackets, Literal.nesting_closeBracket hs]
        rfl
      · simp [closingFrom, hs]
    | succ depth =>
      refine .inr ⟨depth, ?_, by simp [closingFrom, hs]⟩
      rw [Literal.nesting_closeBracket hs]
      omega
  · by_cases hopen : s.isStructural b = true ∧ b = Byte.openBracket
    · obtain ⟨hs, rfl⟩ := hopen
      have hne : (Byte.openBracket == Byte.closeBracket) = false := rfl
      refine .inr ⟨depth + 1, ?_, by simp [closingFrom, hs, hne]⟩
      rw [Literal.nesting_openBracket hs]
      rfl
    · have hpass : s.isStructural b = false ∨
          (b ≠ Byte.openBracket ∧ b ≠ Byte.closeBracket) := by
        cases hs : s.isStructural b with
        | false => exact .inl rfl
        | true => exact .inr ⟨fun hb => hopen ⟨hs, hb⟩, fun hb => hclose ⟨hs, hb⟩⟩
      refine .inr ⟨depth, ?_, closingFrom_cons depth rest hpass⟩
      rw [Literal.nesting_eq_zero hpass, Int.add_zero]

/-- **The search finds the first bracket that closes the array.** -/
theorem closingFrom_eq_some_iff {i : Nat} :
    closingFrom s depth bs = some i ↔
      Settles s depth bs i ∧ ∀ j < i, ¬ Settles s depth bs j := by
  induction bs generalizing s depth i with
  | nil => exact iff_of_false nofun fun h => not_settles_nil i h.1
  | cons b rest ih =>
    rcases closingFrom_cases s depth b rest with ⟨hfirst, hfound⟩ | ⟨depth', hdepth, hnext⟩
    · rw [hfound, Option.some.injEq]
      constructor
      · rintro rfl
        exact ⟨hfirst, fun j hj => absurd hj j.not_lt_zero⟩
      · intro h
        cases i with
        | zero => rfl
        | succ i => exact absurd hfirst (h.2 0 i.succ_pos)
    · have hnot : ¬ Settles s depth (b :: rest) 0 := by
        intro h
        have hsettled := h.settled
        rw [List.take_succ_cons, netBrackets, List.take_zero, netBrackets] at hsettled
        omega
      rw [hnext, Option.map_eq_some_iff]
      cases i with
      | zero => exact iff_of_false (by simp) fun h => hnot h.1
      | succ i =>
        rw [settles_cons_succ_iff hdepth]
        constructor
        · rintro ⟨j, hj, hij⟩
          obtain rfl : j = i := by omega
          obtain ⟨hsettles, hleast⟩ := ih.1 hj
          refine ⟨hsettles, fun k hk => ?_⟩
          cases k with
          | zero => exact hnot
          | succ k =>
            rw [settles_cons_succ_iff hdepth]
            exact hleast k (by omega)
        · rintro ⟨hsettles, hleast⟩
          refine ⟨i, ih.2 ⟨hsettles, fun k hk => ?_⟩, rfl⟩
          rw [← settles_cons_succ_iff hdepth]
          exact hleast (k + 1) (by omega)

/-- The search fails only if no bracket closes the array. -/
theorem closingFrom_eq_none_iff :
    closingFrom s depth bs = none ↔ ∀ i, ¬ Settles s depth bs i := by
  constructor
  · intro h i
    induction i using Nat.strongRecOn with
    | ind i ih =>
      intro hsettles
      rw [closingFrom_eq_some_iff.2 ⟨hsettles, ih⟩] at h
      cases h
  · intro h
    cases hfound : closingFrom s depth bs with
    | none => rfl
    | some i => exact absurd (closingFrom_eq_some_iff.1 hfound).1 (h i)

/-- **Before every byte that the search comes to, its count is exact.** -/
theorem exists_closingFrom_drop {k : Nat} (h : ∀ i, closingFrom s depth bs = some i → k ≤ i) :
    ∃ depth' : Nat, (depth' : Int) = depth + netBrackets s (bs.take k) ∧
      closingFrom s depth bs =
        (closingFrom (s.after (bs.take k)) depth' (bs.drop k)).map (· + k) := by
  induction k generalizing s depth bs with
  | zero => exact ⟨depth, by simp [netBrackets], by simp⟩
  | succ k ih =>
    cases bs with
    | nil => exact ⟨depth, by simp [netBrackets], by simp [closingFrom]⟩
    | cons b rest =>
      rcases closingFrom_cases s depth b rest with ⟨_, hfound⟩ | ⟨depth', hdepth, hnext⟩
      · exact absurd (h 0 hfound) (by omega)
      · have hlater : ∀ i, closingFrom (s.next b) depth' rest = some i → k ≤ i := by
          intro i hi
          have := h (i + 1) (by rw [hnext, hi]; rfl)
          omega
        obtain ⟨depth'', hcount, hrest⟩ := ih hlater
        refine ⟨depth'', ?_, ?_⟩
        · rw [List.take_succ_cons, netBrackets, hcount, hdepth]
          omega
        · rw [hnext, hrest, Option.map_map, List.take_succ_cons, List.drop_succ_cons,
            Literal.after_cons]
          rfl

/-! ## Behind an opening bracket -/

/-- The byte at position `i` closes the array that is opened at position `start`: it is a closing
bracket outside the string literals behind `start`, and with it as many brackets have been closed
as opened. -/
structure ClosesAt (bs : Bytes) (start i : Nat) : Prop where
  behind : start < i
  bracket : bs[i]? = some Byte.closeBracket
  outside : Literal.outside.after (Span.slice ⟨start + 1, i⟩ bs) = .outside
  settled : 1 + netBrackets .outside (Span.slice ⟨start + 1, i + 1⟩ bs) = 0

theorem slice_behind (bs : Bytes) (start i : Nat) :
    Span.slice ⟨start + 1, start + 1 + i⟩ bs = (bs.drop (start + 1)).take i := by
  rw [Span.slice, List.drop_take, Nat.add_sub_cancel_left]

theorem closesAt_iff {start i : Nat} :
    ClosesAt bs start i ↔
      ∃ j, i = start + 1 + j ∧ Settles .outside 0 (bs.drop (start + 1)) j := by
  constructor
  · rintro ⟨hbehind, hbracket, houtside, hsettled⟩
    obtain ⟨j, rfl⟩ : ∃ j, i = start + 1 + j := ⟨i - (start + 1), by omega⟩
    rw [Nat.add_assoc, slice_behind] at hsettled
    rw [slice_behind] at houtside
    exact ⟨j, rfl, by rwa [List.getElem?_drop], houtside, by simpa using hsettled⟩
  · rintro ⟨j, rfl, hbracket, houtside, hsettled⟩
    refine ⟨by omega, by rwa [← List.getElem?_drop], by rwa [slice_behind], ?_⟩
    rw [Nat.add_assoc, slice_behind]
    simpa using hsettled

theorem closesAt_add_iff {start j : Nat} :
    ClosesAt bs start (start + 1 + j) ↔ Settles .outside 0 (bs.drop (start + 1)) j := by
  rw [closesAt_iff]
  constructor
  · rintro ⟨k, hk, h⟩
    obtain rfl : j = k := by omega
    exact h
  · exact fun h => ⟨j, rfl, h⟩

/-- The search starts behind an opening bracket, or not at all. -/
theorem closingBracket?_eq (bs : Bytes) (start : Nat) :
    closingBracket? bs start =
      if bs[start]? = some Byte.openBracket then
        (closingFrom .outside 0 (bs.drop (start + 1))).map (start + 1 + ·)
      else none := by
  rw [closingBracket?]
  cases hdrop : bs.drop start with
  | nil =>
    have hnone : bs[start]? = none := List.getElem?_eq_none (List.drop_eq_nil_iff.1 hdrop)
    rw [hnone]
    rfl
  | cons b rest =>
    have hb : bs[start]? = some b := by
      have h : (bs.drop start)[0]? = bs[start + 0]? := List.getElem?_drop
      rw [hdrop] at h
      exact h.symm
    have hrest : bs.drop (start + 1) = rest := by
      rw [← List.drop_drop, hdrop]
      rfl
    rw [hb, hrest]
    simp only [Option.some.injEq, Nat.add_comm]

variable {start : Nat}

/-- The bracket that is found is the first one that closes the array. -/
theorem closingBracket?_eq_some_iff {i : Nat} :
    closingBracket? bs start = some i ↔
      bs[start]? = some Byte.openBracket ∧ ClosesAt bs start i ∧
        ∀ j < i, ¬ ClosesAt bs start j := by
  rw [closingBracket?_eq]
  by_cases hopen : bs[start]? = some Byte.openBracket
  · rw [if_pos hopen, Option.map_eq_some_iff]
    constructor
    · rintro ⟨j, hj, rfl⟩
      obtain ⟨hsettles, hleast⟩ := closingFrom_eq_some_iff.1 hj
      refine ⟨hopen, closesAt_add_iff.2 hsettles, fun k hk hcloses => ?_⟩
      obtain ⟨l, rfl, hl⟩ := closesAt_iff.1 hcloses
      exact hleast l (by omega) hl
    · rintro ⟨_, hcloses, hleast⟩
      obtain ⟨j, rfl, hj⟩ := closesAt_iff.1 hcloses
      refine ⟨j, closingFrom_eq_some_iff.2 ⟨hj, fun k hk hsettles => ?_⟩, rfl⟩
      exact hleast (start + 1 + k) (by omega) (closesAt_add_iff.2 hsettles)
  · rw [if_neg hopen]
    exact iff_of_false nofun fun h => hopen h.1

/-- No bracket is found if no array is opened, or if nothing closes it. -/
theorem closingBracket?_eq_none_iff :
    closingBracket? bs start = none ↔
      (bs[start]? = some Byte.openBracket → ∀ i, ¬ ClosesAt bs start i) := by
  rw [closingBracket?_eq]
  by_cases hopen : bs[start]? = some Byte.openBracket
  · rw [if_pos hopen, Option.map_eq_none_iff, closingFrom_eq_none_iff]
    constructor
    · intro h _ i hcloses
      obtain ⟨j, rfl, hj⟩ := closesAt_iff.1 hcloses
      exact h j hj
    · intro h j hj
      exact h hopen _ (closesAt_add_iff.2 hj)
  · rw [if_neg hopen]
    exact iff_of_true rfl fun h => absurd h hopen

/-- **The array is open until its bracket is found**: what is left to do before any byte is the
search with as many brackets open as have been opened and not closed. -/
theorem exists_closingBracket?_eq (hopen : bs[start]? = some Byte.openBracket) {stop : Nat}
    (hstop : start < stop) (h : ∀ i, closingBracket? bs start = some i → stop ≤ i) :
    ∃ depth : Nat,
      (depth : Int) + 1 = 1 + netBrackets .outside (Span.slice ⟨start + 1, stop⟩ bs) ∧
      closingBracket? bs start =
        (closingFrom (Literal.outside.after (Span.slice ⟨start + 1, stop⟩ bs)) depth
          (bs.drop stop)).map (· + stop) := by
  obtain ⟨k, rfl⟩ : ∃ k, stop = start + 1 + k := ⟨stop - (start + 1), by omega⟩
  have hbracket := closingBracket?_eq bs start
  rw [if_pos hopen] at hbracket
  have hlater : ∀ i, closingFrom .outside 0 (bs.drop (start + 1)) = some i → k ≤ i := by
    intro i hi
    have := h (start + 1 + i) (by rw [hbracket, hi]; rfl)
    omega
  obtain ⟨depth, hcount, hrest⟩ := exists_closingFrom_drop hlater
  refine ⟨depth, ?_, ?_⟩
  · rw [slice_behind, hcount]
    omega
  · rw [hbracket, hrest, slice_behind, List.drop_drop, Option.map_map]
    congr 1
    funext i
    simp only [Function.comp_apply]
    omega

/-! ## Arrays of JSON texts -/

/-- An array of a JSON text ends at its last byte, whatever stands around it. -/
theorem closingBracket?_array (before rest : Bytes) (space : Space) (items : List (Padded Tree)) :
    closingBracket? (before ++ (Tree.array space items).text ++ rest) before.length =
      some (before.length + (Tree.array space items).text.length - 1) := by
  have hinterior : Balanced (space.bytes ++ joined (items.map Tree.paddedText)) :=
    space.balanced_joined fun p _ => Tree.balanced_padded p.value.balanced
  have hfound := closingBracket?_balanced hinterior before rest
  rw [Tree.text, Tree.itemTexts_eq_map]
  simp only [List.append_assoc, List.cons_append, List.nil_append, List.length_cons,
    List.length_append, List.length_nil] at hfound ⊢
  rw [hfound, Option.some.injEq]
  omega

/-- **The bracket that closes an array is found.** In a JSON text it is the last byte of the array.
In any bytes it is the first position behind an opening bracket at which a closing bracket outside
string literals settles the count, and none is found if the search does not start at an opening
bracket or the count is never settled. Before every byte that is read the count of open brackets is
exact and at least one, so that no closing bracket takes it below zero. -/
theorem closingBracket?_finds :
    (∀ (before rest : Bytes) (space : Space) (items : List (Padded Tree)),
      closingBracket? (before ++ (Tree.array space items).text ++ rest) before.length =
        some (before.length + (Tree.array space items).text.length - 1)) ∧
      ∀ (bs : Bytes) (start : Nat),
        (∀ i, closingBracket? bs start = some i ↔
          bs[start]? = some Byte.openBracket ∧ ClosesAt bs start i ∧
            ∀ j < i, ¬ ClosesAt bs start j) ∧
        (closingBracket? bs start = none ↔
          (bs[start]? = some Byte.openBracket → ∀ i, ¬ ClosesAt bs start i)) ∧
        (bs[start]? = some Byte.openBracket → ∀ stop, start < stop →
          (∀ i, closingBracket? bs start = some i → stop ≤ i) →
          ∃ depth : Nat,
            (depth : Int) + 1 = 1 + netBrackets .outside (Span.slice ⟨start + 1, stop⟩ bs) ∧
            closingBracket? bs start =
              (closingFrom (Literal.outside.after (Span.slice ⟨start + 1, stop⟩ bs)) depth
                (bs.drop stop)).map (· + stop)) := by
  refine ⟨closingBracket?_array, fun bs start => ⟨fun i => ?_, ?_, fun hopen stop hstop h => ?_⟩⟩
  · exact closingBracket?_eq_some_iff
  · exact closingBracket?_eq_none_iff
  · exact exists_closingBracket?_eq hopen hstop h

example : closingBracket? (Bytes.ofString "][\"]\\\"]\",[[]]]]") 1 = some 13 := by decide

end GoalProgress.Scan
