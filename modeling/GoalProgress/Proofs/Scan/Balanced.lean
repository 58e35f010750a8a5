import GoalProgress.Proofs.Json.Escape
import GoalProgress.Scan.Bracket
import GoalProgress.Scan.Span

/-!
# Scanning balanced bytes

In a balanced byte string every bracket, every brace and every string literal is closed. The
scanners for closing brackets and for objects come out of it as they went in, so a search that
starts before balanced bytes goes on behind them.

## Main definitions

* `Scan.Silent`: bytes none of which is structure.
* `Scan.Balanced`: the balanced byte strings.
-/
namespace GoalProgress.Scan

/-! ## Structure -/

namespace Literal

variable {s : Literal} {b : UInt8}

/-- Structure is outside string literals. -/
theorem isStructural_iff :
    s.isStructural b = true ↔ s = .outside ∧ b ≠ Byte.backslash ∧ b ≠ Byte.quote := by
  obtain ⟨inside, escaped⟩ := s
  cases inside <;> cases escaped <;> simp [isStructural, outside]

/-- Structure leaves the literal state as it is. -/
theorem next_of_isStructural (h : s.isStructural b = true) : s.next b = s := by
  obtain ⟨rfl, hbackslash, hquote⟩ := isStructural_iff.1 h
  simp [next, outside, hbackslash, hquote]

end Literal

/-! ## Inside string literals -/

/-- From state `s` on, no byte is structure. -/
def Silent (s : Literal) : Bytes → Prop
  | [] => True
  | b :: bs => s.isStructural b = false ∧ Silent (s.next b) bs

/-- Inside a string literal, with no backslash pending. -/
def Literal.within : Literal := ⟨true, false⟩

theorem silent_append {s : Literal} {bs cs : Bytes} (hb : Silent s bs)
    (hc : Silent (s.after bs) cs) : Silent s (bs ++ cs) := by
  induction bs generalizing s with
  | nil => exact hc
  | cons b bs ih => exact ⟨hb.1, ih hb.2 hc⟩

theorem after_enclosed {body : Bytes} (h : Json.Enclosed body) :
    Literal.within.after body = .within := by
  induction h with
  | nil => rfl
  | @plain b bs hq hs _ ih =>
    have hn : Literal.within.next b = .within := by simp [Literal.next, Literal.within, hq, hs]
    rw [Literal.after_cons, hn, ih]
  | pair b _ ih =>
    have hn : (Literal.within.next Byte.backslash).next b = .within := by
      simp [Literal.next, Literal.within]
    rw [Literal.after_cons, Literal.after_cons, hn, ih]

theorem silent_enclosed {body : Bytes} (h : Json.Enclosed body) : Silent .within body := by
  induction h with
  | nil => trivial
  | @plain b bs hq hs _ ih =>
    have hn : Literal.within.next b = .within := by simp [Literal.next, Literal.within, hq, hs]
    exact ⟨by simp [Literal.isStructural, Literal.within], by rw [hn]; exact ih⟩
  | pair b _ ih =>
    have hn : (Literal.within.next Byte.backslash).next b = .within := by
      simp [Literal.next, Literal.within]
    refine ⟨by simp [Literal.isStructural, Literal.within], ?_, by rw [hn]; exact ih⟩
    simp [Literal.isStructural, Literal.next, Literal.within]

/-- **A string literal leads back out of itself.** -/
theorem after_literal {body : Bytes} (h : Json.Enclosed body) :
    Literal.outside.after (Byte.quote :: (body ++ [Byte.quote])) = .outside := by
  have hopen : Literal.outside.next Byte.quote = .within := rfl
  rw [Literal.after_cons, hopen, Literal.after_append, after_enclosed h]
  rfl

/-- **No byte of a string literal is structure.** -/
theorem silent_literal {body : Bytes} (h : Json.Enclosed body) :
    Silent .outside (Byte.quote :: (body ++ [Byte.quote])) := by
  have hopen : Literal.outside.next Byte.quote = .within := rfl
  refine ⟨rfl, ?_⟩
  rw [hopen]
  refine silent_append (silent_enclosed h) ?_
  rw [after_enclosed h]
  exact ⟨rfl, trivial⟩

/-! ## Balanced bytes -/

/-- A byte that no scanner reacts to. -/
def isInert (b : UInt8) : Bool :=
  b != Byte.quote && b != Byte.backslash && b != Byte.openBracket && b != Byte.closeBracket &&
    b != Byte.openBrace && b != Byte.closeBrace

/-- Byte strings in which every bracket, brace and string literal is closed. -/
inductive Balanced : Bytes → Prop
  | nil : Balanced []
  | append {bs cs : Bytes} (hb : Balanced bs) (hc : Balanced cs) : Balanced (bs ++ cs)
  | inert {b : UInt8} (h : isInert b = true) : Balanced [b]
  | literal {body : Bytes} (h : Json.Enclosed body) :
      Balanced (Byte.quote :: (body ++ [Byte.quote]))
  | brackets {bs : Bytes} (h : Balanced bs) :
      Balanced (Byte.openBracket :: (bs ++ [Byte.closeBracket]))
  | braces {bs : Bytes} (h : Balanced bs) : Balanced (Byte.openBrace :: (bs ++ [Byte.closeBrace]))

namespace Balanced

theorem cons {b : UInt8} {bs : Bytes} (hb : isInert b = true) (h : Balanced bs) :
    Balanced (b :: bs) :=
  .append (.inert hb) h

theorem of_inert {bs : Bytes} (h : ∀ b ∈ bs, isInert b = true) : Balanced bs := by
  induction bs with
  | nil => exact .nil
  | cons b bs ih => exact .cons (h b (by simp)) (ih fun x hx => h x (by simp [hx]))

theorem flatMap {α : Type} {as : List α} {f : α → Bytes} (h : ∀ a ∈ as, Balanced (f a)) :
    Balanced (as.flatMap f) := by
  induction as with
  | nil => exact .nil
  | cons a as ih =>
    rw [List.flatMap_cons]
    exact (h a (by simp)).append (ih fun x hx => h x (by simp [hx]))

theorem joined {parts : List Bytes} (h : ∀ p ∈ parts, Balanced p) :
    Balanced (Json.joined parts) := by
  cases parts with
  | nil => exact .nil
  | cons part parts =>
    rw [Json.joined_cons]
    exact (h part (by simp)).append (.flatMap fun p hp => .cons rfl (h p (by simp [hp])))

/-- Balanced bytes lead back out of all their literals. -/
theorem after_eq {bs : Bytes} (h : Balanced bs) : Literal.outside.after bs = .outside := by
  induction h with
  | nil => rfl
  | append _ _ ihb ihc => rw [Literal.after_append, ihb, ihc]
  | inert hb =>
    simp only [isInert, Bool.and_eq_true, bne_iff_ne] at hb
    simp [Literal.next, Literal.outside, hb]
  | literal hb => exact after_literal hb
  | brackets _ ih =>
    have hopen : Literal.outside.next Byte.openBracket = .outside := rfl
    rw [Literal.after_cons, hopen, Literal.after_append, ih]
    rfl
  | braces _ ih =>
    have hopen : Literal.outside.next Byte.openBrace = .outside := rfl
    rw [Literal.after_cons, hopen, Literal.after_append, ih]
    rfl

end Balanced

end GoalProgress.Scan
