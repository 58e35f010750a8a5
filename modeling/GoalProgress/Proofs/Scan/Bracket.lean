import GoalProgress.Proofs.Scan.Balanced

/-!
# The end of a balanced array

The search for a closing bracket passes over balanced bytes, whatever follows them. If the interior
of an array is balanced, the bracket right after it is therefore the one that is found.
-/
namespace GoalProgress.Scan

theorem closingFrom_cons {s : Literal} {b : UInt8} (depth : Nat) (rest : Bytes)
    (h : s.isStructural b = false ∨ (b ≠ Byte.openBracket ∧ b ≠ Byte.closeBracket)) :
    closingFrom s depth (b :: rest) = (closingFrom (s.next b) depth rest).map (· + 1) := by
  rcases h with h | ⟨ho, hc⟩
  · simp [closingFrom, h]
  · simp [closingFrom, ho, hc]

theorem closingFrom_silent {s : Literal} {bs : Bytes} (h : Silent s bs) (depth : Nat)
    (rest : Bytes) :
    closingFrom s depth (bs ++ rest) =
      (closingFrom (s.after bs) depth rest).map (· + bs.length) := by
  induction bs generalizing s with
  | nil => simp
  | cons b bs ih =>
    rw [List.cons_append, closingFrom_cons depth _ (.inl h.1), ih h.2, Option.map_map,
      Literal.after_cons]
    rfl

/-- **The search for a closing bracket passes over balanced bytes.** -/
theorem closingFrom_balanced {bs : Bytes} (h : Balanced bs) (depth : Nat) (rest : Bytes) :
    closingFrom .outside depth (bs ++ rest) =
      (closingFrom .outside depth rest).map (· + bs.length) := by
  induction h generalizing depth rest with
  | nil => simp
  | append _ _ ihb ihc =>
    rw [List.append_assoc, ihb, ihc, Option.map_map, List.length_append]
    congr 1
    funext n
    simp only [Function.comp_apply]
    omega
  | @inert b hb =>
    simp only [isInert, Bool.and_eq_true, bne_iff_ne] at hb
    have hn : Literal.outside.next b = .outside := by simp [Literal.next, Literal.outside, hb]
    rw [List.singleton_append, closingFrom_cons depth rest (.inr ⟨hb.1.1.1.2, hb.1.1.2⟩), hn]
    rfl
  | literal hb =>
    rw [closingFrom_silent (silent_literal hb), after_literal hb]
  | @brackets bs _ ih =>
    have hopen : closingFrom .outside depth
        (Byte.openBracket :: (bs ++ [Byte.closeBracket]) ++ rest) =
        (closingFrom .outside (depth + 1) (bs ++ Byte.closeBracket :: rest)).map (· + 1) := by
      rw [List.cons_append, List.append_assoc]
      rfl
    have hclose : closingFrom .outside (depth + 1) (Byte.closeBracket :: rest) =
        (closingFrom .outside depth rest).map (· + 1) := rfl
    rw [hopen, ih, hclose, Option.map_map, Option.map_map]
    congr 1
    funext n
    simp only [Function.comp_apply, List.length_cons, List.length_append, List.length_nil]
    omega
  | @braces bs _ ih =>
    have hopen : closingFrom .outside depth (Byte.openBrace :: (bs ++ [Byte.closeBrace]) ++ rest) =
        (closingFrom .outside depth (bs ++ Byte.closeBrace :: rest)).map (· + 1) := by
      rw [List.cons_append, closingFrom_cons depth _ (.inr (by decide)), List.append_assoc]
      rfl
    have hclose : closingFrom .outside depth (Byte.closeBrace :: rest) =
        (closingFrom .outside depth rest).map (· + 1) := by
      rw [closingFrom_cons depth rest (.inr (by decide))]
      rfl
    rw [hopen, ih, hclose, Option.map_map, Option.map_map]
    congr 1
    funext n
    simp only [Function.comp_apply, List.length_cons, List.length_append, List.length_nil]
    omega

/-- **An array with a balanced interior ends right behind it.** -/
theorem closingBracket?_balanced {interior : Bytes} (h : Balanced interior) (before rest : Bytes) :
    closingBracket? (before ++ Byte.openBracket :: (interior ++ Byte.closeBracket :: rest))
      before.length = some (before.length + 1 + interior.length) := by
  have hclose : closingFrom .outside 0 (Byte.closeBracket :: rest) = some 0 := rfl
  rw [closingBracket?, List.drop_left]
  simp only [if_true]
  rw [closingFrom_balanced h, hclose]
  simp only [Option.map_some, Option.some.injEq]
  omega

end GoalProgress.Scan
