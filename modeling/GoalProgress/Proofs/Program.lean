/-!
# Programs that change a state

Programs that may fail, and that change a state as they go on. What has been changed before a
failure stays changed.
-/
namespace GoalProgress

variable {ε σ α β : Type}

/-- A chain of computations succeeds if its links do. -/
theorem bind_eq_ok_iff {first : Except ε α} {next : α → Except ε β} {b : β} :
    first >>= next = .ok b ↔ ∃ a, first = .ok a ∧ next a = .ok b := by
  cases first <;> simp [bind, Except.bind]

/-- A computation with another result succeeds as it did before. -/
theorem map_eq_ok_iff {result : Except ε α} {f : α → β} {b : β} :
    result.map f = .ok b ↔ ∃ a, result = .ok a ∧ f a = b := by
  cases result <;> simp [Except.map]

theorem isOk_map (result : Except ε α) (f : α → β) : (result.map f).isOk = result.isOk := by
  cases result <;> rfl

theorem toOption_eq_some_iff {result : Except ε α} {a : α} :
    result.toOption = some a ↔ result = .ok a := by
  cases result <;> simp [Except.toOption]

/-- A computation whose errors are put in other words succeeds as it did before. -/
theorem mapError_eq_ok_iff {ε' : Type} {f : ε → ε'} {result : Except ε α} {a : α} :
    result.mapError f = .ok a ↔ result = .ok a := by
  cases result with
  | error e => exact iff_of_false nofun nofun
  | ok b =>
    have hok : (Except.ok b).mapError f = .ok b := rfl
    rw [hok, Except.ok.injEq, Except.ok.injEq]

/-- A program goes on in the state that its first part leaves, unless that part fails. -/
theorem run_bind (first : ExceptT ε (StateM σ) α) (next : α → ExceptT ε (StateM σ) β) (s : σ) :
    ((first >>= next).run.run s : Except ε β × σ) =
      match (first.run.run s : Except ε α × σ) with
      | (.ok a, left) => (next a).run.run left
      | (.error e, left) => (.error e, left) := by
  rw [ExceptT.run_bind, StateT.run_bind]
  obtain ⟨result, left⟩ : Except ε α × σ := first.run.run s
  cases result <;> rfl

/-- A program succeeds if its parts do, one after the other. -/
theorem run_bind_eq_ok_iff {first : ExceptT ε (StateM σ) α} {next : α → ExceptT ε (StateM σ) β}
    {s t : σ} {b : β} :
    (first >>= next).run.run s = (.ok b, t) ↔
      ∃ a left, first.run.run s = (.ok a, left) ∧ (next a).run.run left = (.ok b, t) := by
  rw [run_bind]
  obtain ⟨result, left⟩ : Except ε α × σ := first.run.run s
  cases result with
  | error e =>
    refine iff_of_false nofun ?_
    rintro ⟨_, _, heq, _⟩
    cases heq
  | ok a =>
    constructor
    · intro h
      exact ⟨a, left, rfl, h⟩
    · rintro ⟨_, _, heq, h⟩
      cases heq
      exact h

/-- A program that starts with a step which cannot fail. -/
theorem run_liftM_bind {step : StateM σ α} {next : α → ExceptT ε (StateM σ) β} {s left : σ} {a : α}
    (h : step.run s = (a, left)) :
    ((liftM step : ExceptT ε (StateM σ) α) >>= next).run.run s = (next a).run.run left := by
  rw [run_bind]
  have hstep : (liftM step : ExceptT ε (StateM σ) α).run.run s =
      ((.ok (step.run s).1, (step.run s).2) : Except ε α × σ) := rfl
  rw [hstep, h]

/-- A program goes on where a step has left it. -/
theorem run_bind_of_run {step : StateM σ α} {next : α → StateM σ β} {s left : σ} {a : α}
    (h : step.run s = (a, left)) : (step >>= next).run s = (next a).run left := by
  have hbind : (step >>= next).run s = (next (step.run s).1).run (step.run s).2 := rfl
  rw [hbind, h]

/-! ## Programs that change nothing -/

/-- What has been computed already changes nothing. -/
theorem run_ofExcept (result : Except ε α) (s : σ) :
    ((MonadExcept.ofExcept result : ExceptT ε (StateM σ) α).run.run s : Except ε α × σ) =
      (result, s) := by
  cases result <;> rfl

/-- If no part of a program changes anything, it comes to computing one result after the other. -/
theorem run_bind_of_eq {first : ExceptT ε (StateM σ) α} {next : α → ExceptT ε (StateM σ) β}
    {result : Except ε α} {further : α → Except ε β} {s : σ}
    (hfirst : first.run.run s = (result, s))
    (hnext : ∀ a, (next a).run.run s = (further a, s)) :
    (first >>= next).run.run s = (result >>= further, s) := by
  rw [run_bind, hfirst]
  cases result with
  | error e => rfl
  | ok a => exact hnext a

end GoalProgress
