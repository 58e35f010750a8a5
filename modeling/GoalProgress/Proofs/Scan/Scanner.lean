import GoalProgress.Proofs.Scan.Compose
import GoalProgress.Scan.Scanner

/-!
# The scanner on arbitrary bytes

Between any two bytes a scanner remembers what the object scanner does, and in the same form: a
start exactly while braces are open. So its counter is never taken below zero, whatever the bytes
are, and requests find the objects one by one until there are none left. Behind each of them the
scanner is as it was at the beginning, up to the position, and so the objects behind any place
between objects do not depend on what stands before it.

## Main definitions

* `Scan.Scanner.ofState`: the scanner that remembers a given state.
* `Scan.Scanner.spansBehind`: what requests find from a given position on.
-/
namespace GoalProgress.Scan

namespace Scanner

open ObjectState (clear)

/-- The scanner at position `i` that remembers a state of the object scanner. -/
def ofState (bs : Bytes) (i : Nat) (t : ObjectState) : Scanner where
  bytes := bs
  position := i
  literal := t.literal
  depth := t.depth
  start? := if t.depth = 0 then none else some t.start

theorem ofState_clear (bs : Bytes) (i start : Nat) :
    ofState bs i (clear 0 start) = startingAt bs i := rfl

theorem next_ofState (bs : Bytes) (i : Nat) (t : ObjectState) :
    (ofState bs i t).next = (ofState bs i t).nextIn (bs.drop i) := rfl

/-! ## One byte -/

/-- **No byte takes the counter below zero**, and every byte does what it does to the object
scanner. -/
theorem read_ofState (bs : Bytes) (i : Nat) (t : ObjectState) (b : UInt8) :
    (ofState bs i t).read b = .ok ((t.next i b).2, ofState bs (i + 1) (t.next i b).1) := by
  obtain ⟨literal, depth, start⟩ := t
  simp only [read, ofState, ObjectState.next]
  by_cases hopen : (literal.isStructural b && b == Byte.openBrace) = true
  · rw [if_pos hopen, if_pos hopen]
    by_cases hd : depth = 0 <;> simp [hd, pure, Except.pure]
  · rw [if_neg hopen, if_neg hopen]
    by_cases hclose : (literal.isStructural b && b == Byte.closeBrace) = true
    · rw [if_pos hclose, if_pos hclose]
      obtain _ | _ | depth := depth <;> rfl
    · rw [if_neg hclose, if_neg hclose]
      rfl

/-! ## All bytes -/

theorem after_ofState (bs : Bytes) (i : Nat) (t : ObjectState) (cs : Bytes) :
    (ofState bs i t).after cs = .ok (ofState bs (i + cs.length) (t.after i cs)) := by
  induction cs generalizing i t with
  | nil => rfl
  | cons b cs ih =>
    rw [after, read_ofState]
    simp only [bind, Except.bind]
    rw [ih, ObjectState.after, List.length_cons, Nat.add_assoc, Nat.add_comm 1]

/-- Bytes in which no object ends are passed over. -/
theorem nextIn_append {t : ObjectState} {i : Nat} {quiet : Bytes} (h : t.spansFrom i quiet = [])
    (bs rest : Bytes) :
    (ofState bs i t).nextIn (quiet ++ rest) =
      (ofState bs (i + quiet.length) (t.after i quiet)).nextIn rest := by
  induction quiet generalizing i t with
  | nil => rfl
  | cons b quiet ih =>
    rw [ObjectState.spansFrom_next] at h
    obtain ⟨hfound, hquiet⟩ := List.append_eq_nil_iff.1 h
    rw [List.cons_append, nextIn, read_ofState, Option.toList_eq_nil_iff.1 hfound]
    simp only [bind, Except.bind]
    rw [ih hquiet, ObjectState.after, List.length_cons, Nat.add_assoc, Nat.add_comm 1]

/-! ## Requests -/

/-- The objects behind a position at which the scanner is as at the beginning. -/
def spansBehind (bs : Bytes) (i : Nat) : List Span := (clear 0 0).spansFrom i (bs.drop i)

/-- **A request finds the first of the objects to come**, and leaves the scanner as at the
beginning, up to the position. -/
theorem next_of_spansBehind {bs : Bytes} {i : Nat} {first : Span} {spans : List Span}
    (h : spansBehind bs i = first :: spans) :
    (startingAt bs i).next = .ok (some first, startingAt bs first.stop) ∧
      spansBehind bs first.stop = spans := by
  obtain ⟨quiet, b, rest, start, hbytes, hstop, hquiet, hlast, rfl⟩ := ObjectState.exists_first h
  constructor
  · rw [← ofState_clear bs i 0, next_ofState, hbytes, nextIn_append hquiet, nextIn, read_ofState,
      hlast, hstop]
    rfl
  · have hrest : bs.drop first.stop = rest := by
      rw [hstop, Nat.add_assoc, ← List.drop_drop, hbytes, List.append_cons,
        List.drop_left' (by simp)]
    rw [spansBehind, hrest, ObjectState.spansFrom_clear, ObjectState.spansFrom_clear]

/-- Without objects to come, a request finds none, and neither does any request after it. -/
theorem exists_next_of_spansBehind_nil {bs : Bytes} {i : Nat} (h : spansBehind bs i = []) :
    ∃ done, (startingAt bs i).next = .ok (none, done) ∧ done.next = .ok (none, done) := by
  refine ⟨ofState bs (i + (bs.drop i).length) ((clear 0 0).after i (bs.drop i)), ?_, ?_⟩
  · have hrest := nextIn_append h bs []
    rw [List.append_nil] at hrest
    exact hrest
  · have hend : bs.drop (i + (bs.drop i).length) = [] := by
      rw [List.drop_eq_nil_iff, List.length_drop]
      omega
    rw [next_ofState, hend]
    rfl

/-- Requests find all objects to come, after which there are none left. -/
theorem exists_yields_spansBehind (bs : Bytes) (i : Nat) :
    ∃ j, Yields (startingAt bs i) (spansBehind bs i) (startingAt bs j) ∧
      spansBehind bs j = [] := by
  induction hspans : spansBehind bs i generalizing i with
  | nil => exact ⟨i, .nil _, hspans⟩
  | cons first spans ih =>
    obtain ⟨hnext, hrest⟩ := next_of_spansBehind hspans
    obtain ⟨j, hyields, hnone⟩ := ih _ hrest
    exact ⟨j, .cons hnext hyields, hnone⟩

/-- **After every request that finds an object, the scanner is as at the beginning**, behind the
object. -/
theorem Yields.position {bs : Bytes} {i : Nat} {spans : List Span} {s : Scanner}
    (h : Yields (startingAt bs i) spans s) :
    s = startingAt bs ((spans.getLast?.map Span.stop).getD i) := by
  induction spans generalizing i with
  | nil =>
    cases h
    rfl
  | cons span spans ih =>
    cases h with
    | cons hfound hyields =>
      cases hspans : spansBehind bs i with
      | nil =>
        obtain ⟨done, hnone, -⟩ := exists_next_of_spansBehind_nil hspans
        rw [hnone] at hfound
        cases hfound
      | cons first rest =>
        rw [(next_of_spansBehind hspans).1] at hfound
        cases hfound
        rw [ih hyields, List.getLast?_cons]
        cases spans.getLast? <;> rfl

/-! ## All requests -/

/-- **The scanner is safe, and works part by part, on all bytes.** Requests find finitely many
objects and then none any more, and none of them takes the counter below zero. Behind each object
the scanner is as at the beginning, so the other objects are those of the bytes behind the first.
Each range lies within the bytes, from an opening brace to a closing one, and the ranges follow one
another without overlap. Wherever the bytes are cut, the counter is at most the number of bytes read
so far; and if the cut is between objects and outside string literals, with no backslash pending,
the objects are those of the first part and behind them those of the second part, moved by the
length of the first. -/
theorem objectSpans_safe_and_compositional :
    (∀ bs : Bytes,
      (∃ last done, Yields (ofBytes bs) (objectSpans bs) last ∧
        last.next = .ok (none, done) ∧ done.next = .ok (none, done)) ∧
      (∀ spans span s, Yields (ofBytes bs) (spans ++ [span]) s →
        s = startingAt bs span.stop) ∧
      (∀ span ∈ objectSpans bs,
        span.start < span.stop ∧ span.stop ≤ bs.length ∧ span.Braced bs) ∧
      (objectSpans bs).Pairwise (fun s t => s.stop ≤ t.start) ∧
      ∀ first spans, objectSpans bs = first :: spans →
        spans = (objectSpans (bs.drop first.stop)).map (·.shift first.stop)) ∧
    ∀ bs cs : Bytes, ∃ s, (ofBytes (bs ++ cs)).after bs = .ok s ∧
      s.position = bs.length ∧ s.depth ≤ bs.length ∧
      (s.depth = 0 → s.literal = .outside →
        objectSpans (bs ++ cs) = objectSpans bs ++ (objectSpans cs).map (·.shift bs.length)) := by
  refine ⟨fun bs => ⟨?_, ?_, ?_, pairwise_objectSpans bs, ?_⟩, fun bs cs => ?_⟩
  · obtain ⟨j, hyields, hnone⟩ := exists_yields_spansBehind bs 0
    obtain ⟨done, hlast, hdone⟩ := exists_next_of_spansBehind_nil hnone
    exact ⟨_, done, hyields, hlast, hdone⟩
  · intro spans span s h
    rw [h.position, List.getLast?_concat]
    rfl
  · intro span hspan
    have hbraced := objectSpans_braced bs span hspan
    obtain ⟨last, hstop, hlt, hlast⟩ := hbraced.closes
    have hlength := (List.getElem?_eq_some_iff.1 hlast).1
    exact ⟨by omega, by omega, hbraced⟩
  · intro first spans h
    exact objectSpans_behind h
  · refine ⟨_, after_ofState (bs ++ cs) 0 .between bs, Nat.zero_add _, ?_, ?_⟩
    · have hdepth := ObjectState.depth_after_le .between 0 bs
      rwa [ObjectState.between, Nat.zero_add] at hdepth
    · intro hdepth hliteral
      exact objectSpans_append hliteral hdepth

/-- A closing brace too many, an opening one in a string literal, and an object. -/
def strayClose : Bytes := Bytes.ofString "\x7d\"\x7b\"\x7b\"a\":\"\x7d\"\x7d"

/-- A closing brace behind a backslash, an object, and one that is never closed. -/
def strayOpen : Bytes := Bytes.ofString "\\\x7d,\x7b\x7d\x7b"

/-- Bytes that are cut between two objects. -/
theorem objectSpans_safe_and_compositional_stray :
    objectSpans (strayClose ++ strayOpen) = [⟨4, 13⟩, ⟨16, 18⟩] ∧
      objectSpans (strayClose ++ strayOpen) =
        objectSpans strayClose ++ (objectSpans strayOpen).map (·.shift strayClose.length) ∧
      (Span.mk 16 18).Braced (strayClose ++ strayOpen) ∧
      [Span.mk 16 18] = (objectSpans ((strayClose ++ strayOpen).drop 13)).map (·.shift 13) ∧
      ∃ s, (ofBytes (strayClose ++ strayOpen)).next = .ok (some ⟨4, 13⟩, s) ∧
        s = startingAt (strayClose ++ strayOpen) 13 := by
  obtain ⟨hall, hcut⟩ := objectSpans_safe_and_compositional
  obtain ⟨-, hbehind, hranges, -, hrest⟩ := hall (strayClose ++ strayOpen)
  have hspans : objectSpans (strayClose ++ strayOpen) = [⟨4, 13⟩, ⟨16, 18⟩] := by decide
  have hnext : (ofBytes (strayClose ++ strayOpen)).next =
      .ok (some ⟨4, 13⟩, startingAt (strayClose ++ strayOpen) 13) := rfl
  have hafter : (ofBytes (strayClose ++ strayOpen)).after strayClose =
      .ok (startingAt (strayClose ++ strayOpen) 13) := rfl
  refine ⟨hspans, ?_, ?_, hrest _ _ hspans, _, hnext, hbehind [] _ _ (.cons hnext (.nil _))⟩
  · obtain ⟨s, hs, -, -, happend⟩ := hcut strayClose strayOpen
    obtain rfl := Except.ok.inj (hafter.symm.trans hs)
    exact happend rfl rfl
  · exact (hranges ⟨16, 18⟩ (by rw [hspans]; decide)).2.2

end Scanner

end GoalProgress.Scan
