import GoalProgress.Scan.Span

/-!
# Where objects start and end

Whatever bytes are scanned for objects, every range that is found starts at an opening brace and
ends right behind a closing one.

## Main definitions

* `Scan.ObjectState.Step`: what one byte can do to the object scanner.
* `Scan.Span.Braced`: a range from an opening brace to a closing one.
-/
namespace GoalProgress.Scan

/-- A range that starts at an opening brace and ends behind a closing one. -/
structure Span.Braced (s : Span) (bs : Bytes) : Prop where
  opens : bs[s.start]? = some Byte.openBrace
  closes : ∃ last, s.stop = last + 1 ∧ s.start < last ∧ bs[last]? = some Byte.closeBrace

/-- The bytes of such a range have a closing brace among them. -/
theorem Span.Braced.closeBrace_mem {s : Span} {bs : Bytes} (h : s.Braced bs) :
    Byte.closeBrace ∈ s.slice bs := by
  obtain ⟨last, hstop, hlt, hlast⟩ := h.closes
  refine List.mem_of_getElem? (i := last - s.start) ?_
  rw [Span.slice, List.getElem?_drop, List.getElem?_take, hstop, if_pos (by omega), ← hlast]
  congr 1
  omega

namespace ObjectState

/-! ## One byte -/

/-- What a byte at position `i` can do: open an object, close one that stands by itself or in
another one, or only move the literal state. -/
inductive Step (s : ObjectState) (i : Nat) (b : UInt8) : ObjectState → Option Span → Prop
  | opens (hs : s.literal.isStructural b = true) (hb : b = Byte.openBrace) :
      Step s i b ⟨s.literal.next b, s.depth + 1, if s.depth = 0 then i else s.start⟩ none
  | completes (hs : s.literal.isStructural b = true) (hb : b = Byte.closeBrace)
      (hd : s.depth = 1) : Step s i b ⟨s.literal.next b, 0, s.start⟩ (some ⟨s.start, i + 1⟩)
  | closes {depth : Nat} (hs : s.literal.isStructural b = true) (hb : b = Byte.closeBrace)
      (hd : s.depth = depth + 2) : Step s i b ⟨s.literal.next b, depth + 1, s.start⟩ none
  | passes (h : s.literal.isStructural b = true → b ≠ Byte.openBrace ∧
        (b = Byte.closeBrace → s.depth = 0)) :
      Step s i b ⟨s.literal.next b, s.depth, s.start⟩ none

theorem step_next (s : ObjectState) (i : Nat) (b : UInt8) :
    Step s i b (s.next i b).1 (s.next i b).2 := by
  rw [next]
  by_cases hopen : s.literal.isStructural b = true ∧ b = Byte.openBrace
  · rw [if_pos (by simpa using hopen)]
    exact .opens hopen.1 hopen.2
  · rw [if_neg (by simpa using hopen)]
    by_cases hclose : s.literal.isStructural b = true ∧ b = Byte.closeBrace
    · rw [if_pos (by simpa using hclose)]
      split
      · exact .passes fun _ => ⟨fun hb => hopen ⟨hclose.1, hb⟩, fun _ => ‹_›⟩
      · exact .completes hclose.1 hclose.2 ‹_›
      · exact .closes hclose.1 hclose.2 ‹_›
    · rw [if_neg (by simpa using hclose)]
      exact .passes fun hs =>
        ⟨fun hb => hopen ⟨hs, hb⟩, fun hb => absurd ⟨hs, hb⟩ hclose⟩

/-! ## All bytes -/

/-- While an object is open, its start is remembered. -/
def Remembers (s : ObjectState) (before : Bytes) : Prop :=
  s.depth ≠ 0 → before[s.start]? = some Byte.openBrace

theorem Step.remembers {s s' : ObjectState} {before : Bytes} {b : UInt8} {found : Option Span}
    (h : Step s before.length b s' found) (hs : s.Remembers before) :
    s'.Remembers (before ++ [b]) ∧
      ∀ span, found = some span → ∀ rest, span.Braced (before ++ b :: rest) := by
  have hkept (hd : s.depth ≠ 0) (rest : Bytes) :
      (before ++ rest)[s.start]? = some Byte.openBrace := by
    rw [List.getElem?_append_left (List.getElem?_eq_some_iff.1 (hs hd)).1, hs hd]
  cases h with
  | opens _ hb =>
    refine ⟨?_, nofun⟩
    intro _
    by_cases hd : s.depth = 0
    · simp [hd, hb]
    · simpa [hd] using hkept hd [b]
  | completes _ hb hd =>
    have hstart := hs (by omega)
    refine ⟨fun hne => absurd rfl hne, ?_⟩
    rintro _ ⟨⟩ rest
    exact ⟨hkept (by omega) _, before.length, rfl, (List.getElem?_eq_some_iff.1 hstart).1,
      by simp [hb]⟩
  | closes _ _ hd => exact ⟨fun _ => hkept (by omega) [b], nofun⟩
  | passes => exact ⟨fun hd => hkept hd [b], nofun⟩

theorem spansFrom_braced {s : ObjectState} {before : Bytes} (h : s.Remembers before) (bs : Bytes) :
    ∀ span ∈ s.spansFrom before.length bs, span.Braced (before ++ bs) := by
  induction bs generalizing s before with
  | nil => exact nofun
  | cons b bs ih =>
    have hstep := step_next s before.length b
    cases hnext : s.next before.length b with
    | mk s' found =>
      rw [hnext] at hstep
      obtain ⟨hremembers, hfound⟩ := hstep.remembers h
      have hrest := ih hremembers
      rw [List.length_append, List.length_singleton, List.append_assoc,
        List.singleton_append] at hrest
      rw [spansFrom, hnext]
      cases found with
      | none => exact hrest
      | some span => exact List.forall_mem_cons.2 ⟨hfound span rfl bs, hrest⟩

end ObjectState

/-- **Every object that is found starts with an opening brace and ends with a closing one**, in
whatever bytes. -/
theorem objectSpans_braced (bs : Bytes) : ∀ span ∈ objectSpans bs, span.Braced bs := by
  have hbetween : ObjectState.between.Remembers [] := fun h => absurd rfl h
  exact ObjectState.spansFrom_braced hbetween bs

end GoalProgress.Scan
