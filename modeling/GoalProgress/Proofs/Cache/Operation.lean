import GoalProgress.Cache.Operation
import GoalProgress.Proofs.Program

/-!
# Operations are all or nothing

An operation in place comes to the same as computing the new cache from the old one: if it succeeds,
the new cache stands where the old one was, and if it fails, the old cache stands there unchanged.
Nothing has been written by then, because all checks come before all writes.

## Main definitions

* `Cache.Operation.result`: the new cache, computed from the old one.
-/
namespace GoalProgress.Cache

/-! ## Programs -/

theorem run_forM_modify {α : Type} (f : α → Cache → Cache) (as : List α) (cache : Cache) :
    (as.forM fun a => (modify (f a) : CacheM Unit)).run.run cache =
      (.ok (), as.foldl (fun cache a => f a cache) cache) := by
  induction as generalizing cache with
  | nil => rfl
  | cons a as ih => exact ih (f a cache)

theorem run_write (p : Prepared) (cache : Cache) :
    (write p).run.run cache = (.ok (), cache.insert p) := by
  rw [write, run_bind]
  unfold writeGoal
  rw [run_forM_modify]
  rfl

theorem run_forM_write (ps : List Prepared) (cache : Cache) :
    (ps.forM write).run.run cache = (.ok (), ps.foldl insert cache) := by
  induction ps generalizing cache with
  | nil => rfl
  | cons p ps ih =>
    rw [List.forM, run_bind, run_write]
    exact ih (cache.insert p)

/-- Checking changes nothing, whether it succeeds or not. -/
theorem run_forM_check {α : Type} (check : α → Except Error Unit) (as : List α) (cache : Cache) :
    (as.forM fun a => (MonadExcept.ofExcept (check a) : CacheM Unit)).run.run cache =
      (as.forM check, cache) := by
  induction as generalizing cache with
  | nil => rfl
  | cons a as ih =>
    rw [List.forM, List.forM, run_bind]
    cases check a with
    | error e => rfl
    | ok _ => exact ih cache

/-! ## Operations -/

namespace Operation

/-- The cache that an operation is meant to lead to, computed from the cache before it. -/
def result (op : Operation) (cache : Cache) : Except Error Cache :=
  match op with
  | .warmUp cs => cache.warmUp cs
  | .insertRaw p => cache.insertRaw p
  | .restore file => ofSnapshotBytes file

/-- **An operation either reaches its result or changes nothing.** -/
theorem run_eq (op : Operation) (cache : Cache) :
    op.run cache =
      match op.result cache with
      | .ok new => (.ok (), new)
      | .error e => (.error e, cache) := by
  rw [run]
  cases op with
  | warmUp cs =>
    rw [result, Cache.warmUp, perform, run_bind, run_forM_check]
    cases (cs.map Prepared.ofChallenge).forM Prepared.check with
    | error e => rfl
    | ok _ =>
      simp only [run_bind, run_forM_write]
      rfl
  | insertRaw p =>
    rw [result, Cache.insertRaw, perform, run_bind]
    cases p.check with
    | error e => rfl
    | ok _ => exact run_write p cache
  | restore file =>
    rw [result, perform, run_bind]
    cases ofSnapshotBytes file <;> rfl

theorem run_of_result_eq_ok {op : Operation} {cache new : Cache} (h : op.result cache = .ok new) :
    op.run cache = (.ok (), new) := by
  rw [run_eq, h]

/-- **A failure leaves the cache as it was.** -/
theorem run_of_result_eq_error {op : Operation} {cache : Cache} {e : Error}
    (h : op.result cache = .error e) : op.run cache = (.error e, cache) := by
  rw [run_eq, h]

/-- A challenge that passes the check is added. -/
theorem run_insertRaw {p : Prepared} (h : p.check = .ok ()) (cache : Cache) :
    (insertRaw p).run cache = (.ok (), cache.insert p) := by
  refine run_of_result_eq_ok ?_
  rw [result, Cache.insertRaw, h]
  rfl

/-- A challenge that does not pass the check is refused. -/
theorem run_insertRaw_of_error {p : Prepared} {e : Error} (h : p.check = .error e)
    (cache : Cache) : (insertRaw p).run cache = (.error e, cache) := by
  refine run_of_result_eq_error ?_
  rw [result, Cache.insertRaw, h]
  rfl

end Operation

/-! ## Sequences of operations -/

/-- The cache after adding one challenge that passes the check. -/
theorem after_insertRaw {p : Prepared} (h : p.check = .ok ()) :
    after [.insertRaw p] = empty.insert p :=
  congrArg Prod.snd (Operation.run_insertRaw h empty)

theorem after_concat (ops : List Operation) (op : Operation) :
    after (ops ++ [op]) = (op.run (after ops)).2 := by
  rw [after, List.foldl_append]
  rfl

/-- What holds of the empty cache and is kept by every operation of a sequence, if it succeeds,
holds after the sequence. -/
theorem after_induction_of_mem {P : Cache → Prop} (ops : List Operation) (hempty : P empty)
    (hstep : ∀ op ∈ ops, ∀ {cache new : Cache}, P cache → op.result cache = .ok new → P new) :
    P (after ops) := by
  refine List.foldlRecOn ops _ hempty ?_
  intro cache h op hop
  cases hresult : op.result cache with
  | ok new =>
    rw [Operation.run_of_result_eq_ok hresult]
    exact hstep op hop h hresult
  | error e =>
    rw [Operation.run_of_result_eq_error hresult]
    exact h

/-- What holds of the empty cache and is kept by every operation that succeeds, holds after every
sequence of operations. -/
theorem after_induction {P : Cache → Prop} (hempty : P empty)
    (hstep : ∀ {op : Operation} {cache new : Cache}, P cache → op.result cache = .ok new → P new)
    (ops : List Operation) : P (after ops) :=
  after_induction_of_mem ops hempty fun _ _ _ _ => hstep

end GoalProgress.Cache
