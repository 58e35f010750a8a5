import GoalProgress.Proofs.Scan.Braced
import GoalProgress.Proofs.Scan.Span

/-!
# Scanning for objects part by part

The object scanner may be stopped anywhere and go on from what it remembers. Positions are only
passed on to the ranges that are found, and the remembered start is not looked at between objects.
So whatever the bytes are, the objects behind a place between objects are those of the bytes behind
it alone, as many positions further on; and the scanner is between objects behind each range that it
finds.

## Main definitions

* `Scan.ObjectState.after`: the object scanner after a run of bytes.
* `Scan.ObjectState.Shifted`: scanners that remember the same, some positions apart.
-/
namespace GoalProgress.Scan

namespace ObjectState

/-! ## Stopping and going on -/

/-- The scanner after the bytes from position `i` on. -/
def after (s : ObjectState) (i : Nat) : Bytes → ObjectState
  | [] => s
  | b :: rest => (s.next i b).1.after (i + 1) rest

theorem spansFrom_next (s : ObjectState) (i : Nat) (b : UInt8) (rest : Bytes) :
    s.spansFrom i (b :: rest) =
      (s.next i b).2.toList ++ (s.next i b).1.spansFrom (i + 1) rest := by
  rw [spansFrom]
  obtain ⟨s', _ | span⟩ := s.next i b <;> rfl

theorem spansFrom_append (s : ObjectState) (i : Nat) (bs cs : Bytes) :
    s.spansFrom i (bs ++ cs) =
      s.spansFrom i bs ++ (s.after i bs).spansFrom (i + bs.length) cs := by
  induction bs generalizing s i with
  | nil => rfl
  | cons b bs ih =>
    rw [List.cons_append, spansFrom_next, ih, spansFrom_next, List.append_assoc, after,
      List.length_cons, Nat.add_assoc, Nat.add_comm 1]

/-- One more brace is open behind a byte at most. -/
theorem Step.depth_le {s s' : ObjectState} {i : Nat} {b : UInt8} {found : Option Span}
    (h : Step s i b s' found) : s'.depth ≤ s.depth + 1 := by
  cases h with
  | opens => exact Nat.le_refl _
  | completes => exact Nat.zero_le _
  | closes _ _ hd =>
    rw [hd]
    exact Nat.le_add_right _ 2
  | passes => exact Nat.le_succ _

theorem depth_after_le (s : ObjectState) (i : Nat) (bs : Bytes) :
    (s.after i bs).depth ≤ s.depth + bs.length := by
  induction bs generalizing s i with
  | nil => exact Nat.le_refl _
  | cons b bs ih =>
    have hstep := (step_next s i b).depth_le
    have hrest := ih (s.next i b).1 (i + 1)
    rw [after, List.length_cons]
    omega

/-! ## Other positions -/

/-- Two scanners that remember the same, the second one `n` positions further on. -/
structure Shifted (n : Nat) (s s' : ObjectState) : Prop where
  literal : s'.literal = s.literal
  depth : s'.depth = s.depth
  /-- Between objects the start is not looked at any more. -/
  start : s.depth ≠ 0 → s'.start = s.start + n

theorem Shifted.next {n : Nat} {s s' : ObjectState} (h : Shifted n s s') (i : Nat) (b : UInt8) :
    Shifted n (s.next i b).1 (s'.next (i + n) b).1 ∧
      (s'.next (i + n) b).2 = (s.next i b).2.map (·.shift n) := by
  obtain ⟨_, _, start⟩ := s
  obtain ⟨literal, depth, start'⟩ := s'
  obtain ⟨rfl, rfl, hstart⟩ := h
  simp only at hstart
  simp only [ObjectState.next]
  by_cases hopen : (literal.isStructural b && b == Byte.openBrace) = true
  · rw [if_pos hopen, if_pos hopen]
    refine ⟨⟨rfl, rfl, fun _ => ?_⟩, rfl⟩
    by_cases hd : depth = 0
    · simp [hd]
    · simpa [hd] using hstart hd
  · rw [if_neg hopen, if_neg hopen]
    by_cases hclose : (literal.isStructural b && b == Byte.closeBrace) = true
    · rw [if_pos hclose, if_pos hclose]
      obtain _ | _ | depth := depth
      · exact ⟨⟨rfl, rfl, fun h => absurd rfl h⟩, rfl⟩
      · refine ⟨⟨rfl, rfl, fun h => absurd rfl h⟩, ?_⟩
        rw [hstart (by decide)]
        simp only [Option.map_some, Span.shift, Nat.add_right_comm]
      · exact ⟨⟨rfl, rfl, fun _ => hstart (by simp)⟩, rfl⟩
    · rw [if_neg hclose, if_neg hclose]
      exact ⟨⟨rfl, rfl, hstart⟩, rfl⟩

theorem Shifted.spansFrom {n : Nat} {s s' : ObjectState} (h : Shifted n s s') (i : Nat)
    (bs : Bytes) : s'.spansFrom (i + n) bs = (s.spansFrom i bs).map (·.shift n) := by
  induction bs generalizing s s' i with
  | nil => rfl
  | cons b bs ih =>
    obtain ⟨hnext, hfound⟩ := h.next i b
    have hrest := ih hnext (i + 1)
    rw [Nat.add_right_comm] at hrest
    rw [spansFrom_next, spansFrom_next, hfound, hrest, List.map_append, Option.toList_map]

/-- Between objects, what is found further on is what is found in the bytes to come alone. -/
theorem spansFrom_clear (start i : Nat) (bs : Bytes) :
    (clear 0 start).spansFrom i bs = (objectSpans bs).map (·.shift i) := by
  have hshifted : Shifted i between (clear 0 start) := ⟨rfl, rfl, fun h => absurd rfl h⟩
  have hspans := hshifted.spansFrom 0 bs
  rwa [Nat.zero_add] at hspans

theorem clear_of_depth_eq_zero {s : ObjectState} (hliteral : s.literal = .outside)
    (hdepth : s.depth = 0) : s = clear 0 s.start := by
  obtain ⟨_, _, start⟩ := s
  obtain rfl := hliteral
  obtain rfl := hdepth
  rfl

/-! ## Behind an object -/

/-- The first object that is found ends with one byte, before which nothing is found. Behind it the
scanner is between objects, and finds the others. -/
theorem exists_first {s : ObjectState} {i : Nat} {bs : Bytes} {first : Span} {spans : List Span}
    (h : s.spansFrom i bs = first :: spans) :
    ∃ quiet b rest start, bs = quiet ++ b :: rest ∧ first.stop = i + quiet.length + 1 ∧
      s.spansFrom i quiet = [] ∧
      (s.after i quiet).next (i + quiet.length) b = (clear 0 start, some first) ∧
      spans = (clear 0 start).spansFrom first.stop rest := by
  induction bs generalizing s i with
  | nil => cases h
  | cons b bs ih =>
    -- Either this byte completes the object, or the object is the first one of the other bytes.
    have hstep := step_next s i b
    rw [spansFrom_next] at h
    cases hnext : s.next i b with
    | mk s' found =>
      rw [hnext] at hstep h
      cases found with
      | none =>
        obtain ⟨quiet, last, rest, start, rfl, hstop, hquiet, hlast, hspans⟩ := ih h
        have hposition : i + (b :: quiet).length = i + 1 + quiet.length := by
          rw [List.length_cons]
          omega
        refine ⟨b :: quiet, last, rest, start, rfl, by rw [hstop, hposition], ?_, ?_, hspans⟩
        · rw [spansFrom_next, hnext, hquiet]
          rfl
        · rw [after, hnext, hposition]
          exact hlast
      | some span =>
        obtain ⟨rfl, rfl⟩ := List.cons.inj h
        cases hstep with
        | completes hs _ hd =>
          have houtside : s.literal.next b = .outside := by
            rw [Literal.next_of_isStructural hs]
            exact (Literal.isStructural_iff.1 hs).1
          rw [houtside] at hnext ⊢
          exact ⟨[], b, bs, s.start, rfl, rfl, rfl, hnext, rfl⟩

end ObjectState

open ObjectState

/-- **Behind the first object come the objects of the bytes behind it.** -/
theorem objectSpans_behind {bs : Bytes} {first : Span} {spans : List Span}
    (h : objectSpans bs = first :: spans) :
    spans = (objectSpans (bs.drop first.stop)).map (·.shift first.stop) := by
  obtain ⟨quiet, b, rest, start, rfl, hstop, -, -, hspans⟩ := exists_first h
  have hrest : (quiet ++ b :: rest).drop first.stop = rest := by
    rw [List.append_cons, List.drop_left' (by simp [hstop])]
  rw [hspans, spansFrom_clear, hrest]

/-- **The bytes may be cut at every place between objects**: the objects behind it are those of the
bytes behind it. -/
theorem objectSpans_append {bs cs : Bytes} (hliteral : (between.after 0 bs).literal = .outside)
    (hdepth : (between.after 0 bs).depth = 0) :
    objectSpans (bs ++ cs) = objectSpans bs ++ (objectSpans cs).map (·.shift bs.length) := by
  rw [objectSpans, spansFrom_append, clear_of_depth_eq_zero hliteral hdepth, spansFrom_clear,
    Nat.zero_add]
  rfl

/-- The objects are in the order of their positions, and none of them reaches into another. -/
theorem pairwise_objectSpans (bs : Bytes) :
    (objectSpans bs).Pairwise fun s t => s.stop ≤ t.start := by
  -- By induction on the length: the objects behind the first one are found in fewer bytes.
  induction hlength : bs.length using Nat.strongRecOn generalizing bs with
  | ind length ih =>
    subst hlength
    cases hspans : objectSpans bs with
    | nil => exact .nil
    | cons first spans =>
      have hshorter : (bs.drop first.stop).length < bs.length := by
        obtain ⟨quiet, b, rest, start, rfl, hstop, -⟩ := exists_first hspans
        simp only [List.length_drop, List.length_append, List.length_cons]
        omega
      rw [objectSpans_behind hspans, List.pairwise_cons]
      refine ⟨List.forall_mem_map.2 fun s _ => ?_, List.pairwise_map.2 ?_⟩
      · exact Nat.le_add_left _ _
      · exact (ih _ hshorter _ rfl).imp fun hle => Nat.add_le_add_right hle _

end GoalProgress.Scan
