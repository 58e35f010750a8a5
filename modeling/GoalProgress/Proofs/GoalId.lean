import GoalProgress.GoalId
import GoalProgress.Proofs.Bytes.Search
import GoalProgress.Scan.Span

/-!
# Where the id of a goal is read

The search for an id goes from mark to mark: the first `"goalId"`, a colon behind it, and two quotes
behind the colon. The id is what stands between the quotes, so it is the colon that decides what is
read.

## Main definitions

* `GoalId.colon?`: the colon behind which the id is read.
* `GoalId.place`: where the id stands.
-/
namespace GoalProgress.GoalId

open Scan (Span)

/-- The first colon behind the first name of an id. -/
def colon? (goal : Bytes) : Option Nat := do
  let start ← goal.find? key
  goal.findByte? Byte.colon (start + key.length)

/-- Where the id of a goal stands. -/
def place (goal : Bytes) : Except GoalIdError Span := do
  let some start := goal.find? key | throw .fieldNotFound
  let some colon := goal.findByte? Byte.colon (start + key.length) | throw .missingColon
  let some opening := goal.findByte? Byte.quote (colon + 1) | throw .missingOpeningQuote
  let some closing := goal.findByte? Byte.quote (opening + 1) | throw .missingClosingQuote
  return ⟨opening + 1, closing⟩

/-- The id is the text that stands at its place. -/
theorem ofGoal_eq (goal : Bytes) :
    ofGoal goal = (place goal).bind fun s =>
      match Bytes.toString? (s.slice goal) with
      | some id => .ok id
      | none => .error .invalidUtf8 := by
  rw [ofGoal, place]
  cases goal.find? key with
  | none => rfl
  | some start =>
    simp only
    cases goal.findByte? Byte.colon (start + key.length) with
    | none => rfl
    | some colon =>
      simp only
      cases goal.findByte? Byte.quote (colon + 1) with
      | none => rfl
      | some opening =>
        simp only
        cases goal.findByte? Byte.quote (opening + 1) <;> rfl

theorem ofGoal_of_place {goal : Bytes} {s : Span} {id : String} (h : place goal = .ok s)
    (hid : s.slice goal = Bytes.ofString id) : ofGoal goal = .ok id := by
  rw [ofGoal_eq, h, Except.bind, hid, Bytes.toString?_ofString]

/-- An id is found between the first two quotes behind its colon. -/
theorem place_eq_ok_iff {goal : Bytes} {s : Span} :
    place goal = .ok s ↔
      ∃ colon opening, colon? goal = some colon ∧
        goal.findByte? Byte.quote (colon + 1) = some opening ∧
        goal.findByte? Byte.quote (opening + 1) = some s.stop ∧ s.start = opening + 1 := by
  rw [place, colon?]
  cases goal.find? key with
  | none => exact iff_of_false nofun (by simp)
  | some start =>
    simp only [Option.bind_eq_bind, Option.bind_some]
    cases goal.findByte? Byte.colon (start + key.length) with
    | none => exact iff_of_false nofun (by simp)
    | some colon =>
      simp only [Option.some.injEq]
      cases hopening : goal.findByte? Byte.quote (colon + 1) with
      | none =>
        refine iff_of_false nofun ?_
        rintro ⟨_, opening, rfl, h, _⟩
        rw [hopening] at h
        cases h
      | some opening =>
        simp only
        cases hclosing : goal.findByte? Byte.quote (opening + 1) with
        | none =>
          refine iff_of_false nofun ?_
          rintro ⟨_, _, rfl, h, h', _⟩
          rw [hopening, Option.some.injEq] at h
          rw [← h, hclosing] at h'
          cases h'
        | some closing =>
          constructor
          · intro h
            cases h
            exact ⟨colon, opening, rfl, hopening, hclosing, rfl⟩
          · rintro ⟨_, _, rfl, h, h', hstart⟩
            rw [hopening, Option.some.injEq] at h
            subst h
            rw [hclosing, Option.some.injEq] at h'
            obtain ⟨_, _⟩ := s
            simp only at h' hstart
            rw [h', hstart]
            rfl

variable {lead front gap gap' content rest goal : Bytes}

/-- Behind its colon the id stands between the next two quotes. -/
theorem place_of_colon?
    (hgoal : goal = front ++ Byte.colon :: (gap ++ Byte.quote :: (content ++ Byte.quote :: rest)))
    (hcolon : colon? goal = some front.length) (hgap : Byte.quote ∉ gap)
    (hcontent : Byte.quote ∉ content) :
    place goal = .ok ⟨(front ++ Byte.colon :: (gap ++ [Byte.quote])).length,
      (front ++ Byte.colon :: (gap ++ Byte.quote :: content)).length⟩ := by
  have hopening : goal.findByte? Byte.quote (front ++ [Byte.colon]).length =
      some (front ++ [Byte.colon] ++ gap).length :=
    Bytes.findByte?_of_eq hgap (content ++ Byte.quote :: rest) (by simp [hgoal])
  have hclosing : goal.findByte? Byte.quote
      (front ++ [Byte.colon] ++ gap ++ [Byte.quote]).length =
      some (front ++ [Byte.colon] ++ gap ++ [Byte.quote] ++ content).length :=
    Bytes.findByte?_of_eq hcontent rest (by simp [hgoal])
  have hbehind (bs : Bytes) (b : UInt8) : (bs ++ [b]).length = bs.length + 1 := by simp
  rw [hbehind] at hopening hclosing
  refine place_eq_ok_iff.2 ⟨_, _, hcolon, hopening, ?_, ?_⟩
  · rw [hclosing]
    simp
  · simp only [List.length_append, List.length_cons, List.length_nil]
    omega

/-- **What is read is what stands between the two quotes behind the colon.** -/
theorem ofGoal_of_colon?
    (hgoal : goal = front ++ Byte.colon :: (gap ++ Byte.quote :: (content ++ Byte.quote :: rest)))
    (hcolon : colon? goal = some front.length) (hgap : Byte.quote ∉ gap)
    (hcontent : Byte.quote ∉ content) :
    ofGoal goal =
      match Bytes.toString? content with
      | some id => .ok id
      | none => .error .invalidUtf8 := by
  have hslice : Span.slice ⟨(front ++ Byte.colon :: (gap ++ [Byte.quote])).length,
      (front ++ Byte.colon :: (gap ++ Byte.quote :: content)).length⟩ goal = content := by
    have hsplit : goal = front ++ Byte.colon :: (gap ++ [Byte.quote]) ++ content ++
        Byte.quote :: rest := by
      simp [hgoal]
    have hstop : (front ++ Byte.colon :: (gap ++ Byte.quote :: content)).length =
        (front ++ Byte.colon :: (gap ++ [Byte.quote]) ++ content).length := by
      simp
    rw [hstop, hsplit, Span.slice, List.take_left, List.drop_left]
  rw [ofGoal_eq, place_of_colon? hgoal hcolon hgap hcontent, Except.bind, hslice]

/-- **If the id is read behind a quote, its colon is the one between this quote and the quote
before.** -/
theorem colon?_of_place
    (hgoal : goal = lead ++ Byte.quote :: (gap ++ Byte.colon :: (gap' ++ Byte.quote :: rest)))
    (hgap : Byte.colon ∉ gap) (hgap' : Byte.colon ∉ gap') {s : Span} (hplace : place goal = .ok s)
    (hstart : s.start =
      (lead ++ Byte.quote :: (gap ++ Byte.colon :: (gap' ++ [Byte.quote]))).length) :
    colon? goal = some (lead ++ Byte.quote :: gap).length := by
  obtain ⟨colon, opening, hcolon, hopening, _, hopening'⟩ := place_eq_ok_iff.1 hplace
  obtain ⟨hle, _, hleast⟩ := Bytes.findByte?_eq_some_iff.1 hopening
  have hfound : goal[colon]? = some Byte.colon := by
    obtain ⟨_, _, hcolon⟩ := Option.bind_eq_some_iff.1 hcolon
    exact (Bytes.findByte?_eq_some_iff.1 hcolon).2.1
  have hquote : goal[lead.length]? = some Byte.quote := by
    rw [hgoal, List.getElem?_append_right (Nat.le_refl _), Nat.sub_self]
    rfl
  simp only [List.length_append, List.length_cons, List.length_nil] at hstart
  -- the quote before cannot stand behind the colon: it would be found first
  have hlead : lead.length < colon := by
    rcases Nat.lt_trichotomy lead.length colon with hlt | heq | hgt
    · exact hlt
    · rw [← heq, hquote] at hfound
      cases hfound
    · exact absurd hquote (hleast _ hgt (by omega))
  obtain ⟨k, rfl⟩ := Nat.exists_eq_add_of_lt hlead
  have hk : (gap ++ Byte.colon :: (gap' ++ Byte.quote :: rest))[k]? = some Byte.colon := by
    rw [hgoal, List.getElem?_append_right (by omega)] at hfound
    have hindex : lead.length + k + 1 - lead.length = k + 1 := by omega
    rwa [hindex, List.getElem?_cons_succ] at hfound
  rw [hcolon, Option.some.injEq, List.length_append, List.length_cons]
  rcases Nat.lt_trichotomy k gap.length with hlt | heq | hgt
  · rw [List.getElem?_append_left hlt] at hk
    exact absurd (List.mem_of_getElem? hk) hgap
  · omega
  · obtain ⟨j, rfl⟩ := Nat.exists_eq_add_of_lt hgt
    rw [List.getElem?_append_right (by omega)] at hk
    have hindex : gap.length + j + 1 - gap.length = j + 1 := by omega
    rw [hindex, List.getElem?_cons_succ, List.getElem?_append_left (by omega)] at hk
    exact absurd (List.mem_of_getElem? hk) hgap'

end GoalProgress.GoalId
