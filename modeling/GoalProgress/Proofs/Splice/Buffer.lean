import GoalProgress.Proofs.Program
import GoalProgress.Proofs.Splice.Cut
import GoalProgress.Splice.Buffer

/-!
# What splicing leaves in a buffer

No piece of a challenge depends on what the buffer holds, and none changes it: every step appends
the same bytes to any buffer. Splicing therefore ends in the same way behind any bytes. If it
succeeds, the spliced challenge stands behind them; if it fails, cutting the buffer back to its
length leaves just them, however many goals have been written.

## Main definitions

* `Splice.Writes`: steps that append the same bytes to any buffer.
* `Splice.Appends`: programs that do so and end with the same result.
-/
namespace GoalProgress.Splice

open Json (joined)

/-- A step that appends `bs` to whatever the buffer holds. -/
def Writes (step : BufferM Unit) (bs : Bytes) : Prop := ∀ out, step.run out = ((), out ++ bs)

/-- A program that ends with `result`, having appended `bs` to whatever the buffer held. -/
def Appends (program : ExceptT Error BufferM Unit) (result : Except Error Unit) (bs : Bytes) :
    Prop :=
  ∀ out, program.run.run out = (result, out ++ bs)

/-! ## Steps -/

theorem writes_write (bs : Bytes) : Writes (write bs) bs := fun _ => rfl

theorem writes_nothing : Writes (pure ()) [] := by
  intro out
  rw [List.append_nil]
  rfl

theorem Writes.bind {step next : BufferM Unit} {bs cs : Bytes} (hstep : Writes step bs)
    (hnext : Writes next cs) : Writes (step >>= fun _ => next) (bs ++ cs) := by
  intro out
  rw [run_bind_of_run (hstep out), hnext, List.append_assoc]

/-- The suffix is written in nine pieces. -/
theorem writes_writeSuffix (record : Option ProgressRecord) :
    Writes (writeSuffix record) (Suffix.ofRecord? record) := by
  cases record with
  | none => exact writes_write _
  | some r =>
    rw [Suffix.ofRecord?, Suffix.ofRecord]
    simp only [List.append_assoc]
    exact (writes_write _).bind ((writes_write _).bind ((writes_write _).bind
      ((writes_write _).bind ((writes_write _).bind ((writes_write _).bind
        ((writes_write _).bind ((writes_write _).bind (writes_write _))))))))

/-- What is removed right behind some bytes is the first of the bytes that follow. -/
theorem eraseIdx_length_append (bs cs : Bytes) :
    (bs ++ cs).eraseIdx bs.length = bs ++ cs.drop 1 := by
  rw [List.eraseIdx_append_of_length_le (Nat.le_refl _), Nat.sub_self, List.eraseIdx_zero,
    List.drop_one]

/-- The byte that is removed is the first one behind the body, whatever stands before it. -/
theorem writes_writeSuffixAfter (body : Bytes) (record : Option ProgressRecord) :
    Writes (writeSuffixAfter body record) (suffixAfter body record) := by
  intro out
  have hget : (get : BufferM Bytes).run out = (out, out) := rfl
  rw [writeSuffixAfter, run_bind_of_run hget, run_bind_of_run (writes_writeSuffix record out),
    suffixAfter]
  cases isEmptyObject body with
  | false => rfl
  | true => exact congrArg (Prod.mk ()) (eraseIdx_length_append out _)

/-- What is written for a goal is the goal with its progress. -/
theorem writes_writeGoal (doc : Bytes) (record : Option ProgressRecord) :
    Writes (writeGoal doc record) (goal doc record) := by
  rw [writeGoal, goal]
  cases doc.lastByte? Byte.closeBrace with
  | none => exact writes_write doc
  | some i =>
    simp only [List.append_assoc]
    exact (writes_write _).bind ((writes_writeSuffixAfter _ _).bind (writes_write _))

/-! ## Programs that may fail -/

theorem appends_pure : Appends (pure ()) (.ok ()) [] := by
  intro out
  rw [List.append_nil]
  rfl

theorem Writes.appends_bind {step : BufferM Unit} {next : ExceptT Error BufferM Unit}
    {result : Except Error Unit} {bs cs : Bytes} (hstep : Writes step bs)
    (hnext : Appends next result cs) :
    Appends ((liftM step : ExceptT Error BufferM Unit) >>= fun _ => next) result (bs ++ cs) := by
  intro out
  rw [run_liftM_bind (hstep out), hnext, List.append_assoc]

theorem Writes.appends {step : BufferM Unit} {bs : Bytes} (hstep : Writes step bs) :
    Appends (liftM step) (.ok ()) bs := by
  intro out
  have hrun : (liftM step : ExceptT Error BufferM Unit).run.run out =
      ((.ok (step.run out).1, (step.run out).2) : Except Error Unit × Bytes) := rfl
  rw [hrun, hstep]

theorem Appends.bind {program next : ExceptT Error BufferM Unit} {result : Except Error Unit}
    {bs cs : Bytes} (hprogram : Appends program (.ok ()) bs) (hnext : Appends next result cs) :
    Appends (program >>= fun _ => next) result (bs ++ cs) := by
  intro out
  rw [run_bind, hprogram]
  exact (hnext _).trans (by rw [List.append_assoc])

/-- Behind a failure nothing more is written. -/
theorem Appends.bind_of_error {program next : ExceptT Error BufferM Unit} {e : Error} {bs : Bytes}
    (hprogram : Appends program (.error e) bs) :
    Appends (program >>= fun _ => next) (.error e) bs := by
  intro out
  rw [run_bind, hprogram]

/-- What goals come to behind others: the first one of all has no comma before it. -/
def row : Nat → List Bytes → Bytes
  | 0, goals => joined goals
  | _ + 1, goals => goals.flatMap (Byte.comma :: ·)

theorem row_nil (ordinal : Nat) : row ordinal [] = [] := by
  cases ordinal <;> rfl

/-- **Writing a goal**: its comma and its text, and then the goals behind it. -/
theorem appends_writeGoals_cons {doc : Bytes} {id : String} (hid : GoalId.ofGoal doc = .ok id)
    {lookup : Lookup} {ordinal : Nat} {docs goals : List Bytes} {result : Except Error Unit}
    (h : Appends (writeGoals lookup (ordinal + 1) docs) result (row (ordinal + 1) goals)) :
    Appends (writeGoals lookup ordinal (doc :: docs)) result
      (row ordinal (goal doc (lookup.get? id) :: goals)) := by
  have hrow : row ordinal (goal doc (lookup.get? id) :: goals) =
      (if 0 < ordinal then [Byte.comma] else []) ++
        (goal doc (lookup.get? id) ++ row (ordinal + 1) goals) := by
    cases ordinal with
    | zero => exact Json.joined_cons _ _
    | succ ordinal => simp [row]
  have hcomma : Writes (writeComma ordinal) (if 0 < ordinal then [Byte.comma] else []) := by
    cases ordinal with
    | zero => exact writes_nothing
    | succ ordinal => exact writes_write _
  have hrest := hcomma.appends_bind ((writes_writeGoal doc (lookup.get? id)).appends_bind h)
  intro out
  rw [writeGoals, hid, run_bind, run_ofExcept, hrow]
  exact hrest out

/-- **Writing goals that all have ids.** -/
theorem appends_writeGoals {lookup : Lookup} {ordinal : Nat} {docs goals : List Bytes}
    (h : numberedGoals lookup ordinal docs = .ok goals) :
    Appends (writeGoals lookup ordinal docs) (.ok ()) (row ordinal goals) := by
  induction docs generalizing ordinal goals with
  | nil =>
    obtain rfl := Except.ok.inj h
    rw [row_nil]
    exact appends_pure
  | cons doc docs ih =>
    obtain ⟨id, rest, hid, hrest, rfl⟩ := numberedGoals_cons_eq_ok h
    exact appends_writeGoals_cons hid (ih hrest)

/-- **Writing goals of which one has no id**: the goals before it are written, and no more. -/
theorem exists_appends_writeGoals {lookup : Lookup} {ordinal : Nat} {docs : List Bytes} {e : Error}
    (h : numberedGoals lookup ordinal docs = .error e) :
    ∃ k goals, numberedGoals lookup ordinal (docs.take k) = .ok goals ∧
      (∃ cause, e = .goalIdExtraction (ordinal + k) cause) ∧
      Appends (writeGoals lookup ordinal docs) (.error e) (row ordinal goals) := by
  induction docs generalizing ordinal with
  | nil => cases h
  | cons doc docs ih =>
    cases hid : GoalId.ofGoal doc with
    | error cause =>
      rw [numberedGoals_cons_of_error hid] at h
      obtain rfl := Except.error.inj h
      refine ⟨0, [], rfl, ⟨cause, rfl⟩, fun out => ?_⟩
      rw [writeGoals, hid, run_bind, run_ofExcept, row_nil, List.append_nil]
      rfl
    | ok id =>
      rw [numberedGoals_cons_of_ok hid] at h
      cases hrest : numberedGoals lookup (ordinal + 1) docs with
      | ok goals =>
        rw [hrest] at h
        cases h
      | error e' =>
        rw [hrest] at h
        obtain rfl := Except.error.inj h
        obtain ⟨k, goals, hgoals, ⟨cause, hcause⟩, happends⟩ := ih hrest
        refine ⟨k + 1, goal doc (lookup.get? id) :: goals, ?_, ⟨cause, ?_⟩,
          appends_writeGoals_cons hid happends⟩
        · rw [List.take_succ_cons, numberedGoals_cons_of_ok hid, hgoals]
          rfl
        · rw [hcause, Nat.add_right_comm, Nat.add_assoc]

/-! ## Challenges -/

/-- **Writing a challenge cuts the document as splicing does**, and writes its parts. -/
theorem writeChallenge_eq_cut (doc : Bytes) (lookup : Lookup) :
    writeChallenge doc lookup = (do
      match ← (MonadExcept.ofExcept (cut doc) : ExceptT Error BufferM (Option Cut)) with
      | none => write doc
      | some c => do
        write c.before
        writeGoals lookup 0 c.goals
        write c.after) := by
  rw [writeChallenge, cut]
  cases doc.find? goalsKey with
  | none => rfl
  | some key =>
    simp only
    cases doc.findByte? Byte.openBracket (key + goalsKey.length) with
    | none => rfl
    | some opening =>
      simp only
      cases Scan.closingBracket? doc opening <;> rfl

/-- Append goals as `writeGoals` does, each of them by `step`. -/
def writeGoalsBy (step : Bytes → Option ProgressRecord → BufferM Unit) (lookup : Lookup)
    (ordinal : Nat) : List Bytes → ExceptT Error BufferM Unit
  | [] => pure ()
  | doc :: docs => do
    let id ← MonadExcept.ofExcept ((GoalId.ofGoal doc).mapError (.goalIdExtraction ordinal))
    writeComma ordinal
    step doc (lookup.get? id)
    writeGoalsBy step lookup (ordinal + 1) docs

/-- Append a challenge document as `writeChallenge` does, its goals by `step`. -/
def writeChallengeBy (step : Bytes → Option ProgressRecord → BufferM Unit) (doc : Bytes)
    (lookup : Lookup) : ExceptT Error BufferM Unit := do
  match ← (MonadExcept.ofExcept (cut doc) : ExceptT Error BufferM (Option Cut)) with
  | none => write doc
  | some c => do
    write c.before
    writeGoalsBy step lookup 0 c.goals
    write c.after

theorem writeGoalsBy_eq {step : Bytes → Option ProgressRecord → BufferM Unit} {docs : List Bytes}
    (h : ∀ doc ∈ docs, step doc = writeGoal doc) (lookup : Lookup) (ordinal : Nat) :
    writeGoalsBy step lookup ordinal docs = writeGoals lookup ordinal docs := by
  induction docs generalizing ordinal with
  | nil => rfl
  | cons doc docs ih =>
    rw [List.forall_mem_cons] at h
    simp only [writeGoalsBy, writeGoals, h.1, ih h.2]

/-- **Only the goals that are cut out are written as goals**: how another document would be written
makes no difference. -/
theorem writeChallengeBy_eq {step : Bytes → Option ProgressRecord → BufferM Unit} {doc : Bytes}
    (h : ∀ c, cut doc = .ok (some c) → ∀ goal ∈ c.goals, step goal = writeGoal goal)
    (lookup : Lookup) : writeChallengeBy step doc lookup = writeChallenge doc lookup := by
  rw [writeChallengeBy, writeChallenge_eq_cut]
  refine ExceptT.ext (StateT.ext fun out => ?_)
  rw [run_bind, run_bind, run_ofExcept]
  cases hcut : cut doc with
  | error e => rfl
  | ok c? =>
    cases c? with
    | none => rfl
    | some c => simp only [writeGoalsBy_eq (h c hcut)]

/-- The bytes that have been written when splicing a challenge fails: none, if the array of its
goals is at fault, and otherwise everything before the goal that has no id. -/
inductive Unfinished (doc : Bytes) (lookup : Lookup) : Error → Bytes → Prop
  | array {fault : GoalsFault} (h : cut doc = .error (.malformedGoals fault)) :
    Unfinished doc lookup (.malformedGoals fault) []
  | goal {c : Cut} {k : Nat} {goals : List Bytes} (cause : GoalIdError)
    (h : cut doc = .ok (some c)) (hgoals : numberedGoals lookup 0 (c.goals.take k) = .ok goals) :
    Unfinished doc lookup (.goalIdExtraction k cause) (c.before ++ joined goals)

variable {doc : Bytes} {lookup : Lookup}

/-- A challenge that can be spliced is written, whatever the buffer holds. -/
theorem appends_writeChallenge {spliced : Bytes} (h : challenge doc lookup = .ok spliced) :
    Appends (writeChallenge doc lookup) (.ok ()) spliced := by
  rw [writeChallenge_eq_cut]
  rcases challenge_eq_ok_iff.1 h with ⟨hcut, rfl⟩ | ⟨c, goals, hcut, hgoals, rfl⟩
  · intro out
    rw [run_bind, run_ofExcept, hcut]
    exact (writes_write _).appends out
  · have hparts := (writes_write c.before).appends_bind
      ((appends_writeGoals hgoals).bind (writes_write c.after).appends)
    intro out
    rw [run_bind, run_ofExcept, hcut, List.append_assoc]
    exact hparts out

/-- Splicing a challenge fails in the same way whatever the buffer holds. -/
theorem exists_appends_writeChallenge {e : Error} (h : challenge doc lookup = .error e) :
    ∃ written, Unfinished doc lookup e written ∧
      Appends (writeChallenge doc lookup) (.error e) written := by
  rw [challenge_eq_cut] at h
  rw [writeChallenge_eq_cut]
  rcases cut_cases doc with hcut | ⟨fault, hcut⟩ | ⟨_, _, c, _, _, hcut⟩
  · rw [hcut] at h
    cases h
  · rw [hcut] at h
    obtain rfl := Except.error.inj h
    refine ⟨[], .array hcut, fun out => ?_⟩
    rw [run_bind, run_ofExcept, hcut, List.append_nil]
  · cases hgoals : numberedGoals lookup 0 c.goals with
    | ok goals =>
      rw [hcut] at h
      simp only [bind, Except.bind, hgoals] at h
      cases h
    | error e' =>
      rw [hcut] at h
      simp only [bind, Except.bind, hgoals] at h
      obtain rfl := Except.error.inj h
      obtain ⟨k, goals, hbefore, ⟨cause, rfl⟩, happends⟩ := exists_appends_writeGoals hgoals
      rw [Nat.zero_add] at happends ⊢
      have hparts : Appends (do
          write c.before
          writeGoals lookup 0 c.goals
          write c.after) (.error (.goalIdExtraction k cause)) (c.before ++ joined goals) :=
        (writes_write c.before).appends_bind happends.bind_of_error
      refine ⟨_, .goal cause hcut hbefore, fun out => ?_⟩
      rw [run_bind, run_ofExcept, hcut]
      exact hparts out

/-- Appending a challenge appends its spliced form, or nothing. -/
theorem appendChallenge_eq (out doc : Bytes) (lookup : Lookup) :
    appendChallenge out doc lookup =
      match challenge doc lookup with
      | .ok spliced => (out ++ spliced, .ok ())
      | .error e => (out, .error e) := by
  rw [appendChallenge]
  cases h : challenge doc lookup with
  | ok spliced => rw [appends_writeChallenge h out]; rfl
  | error e =>
    obtain ⟨written, _, happends⟩ := exists_appends_writeChallenge h
    rw [happends out]
    exact congrArg (·, Except.error e) List.take_left

/-- **Splicing into a buffer is atomic, and what the buffer holds does not matter.** If a challenge
can be spliced, its spliced form is written behind the bytes of any buffer; the empty buffer is the
case in which nothing else is there. If it cannot, writing stops with the same error in any buffer,
perhaps behind goals that have been written already, and what the buffer is left with is what it
held. -/
theorem appendChallenge_atomic (doc : Bytes) (lookup : Lookup) :
    (∀ spliced, challenge doc lookup = .ok spliced →
      Appends (writeChallenge doc lookup) (.ok ()) spliced ∧
        ∀ out, appendChallenge out doc lookup = (out ++ spliced, .ok ())) ∧
      ∀ e, challenge doc lookup = .error e →
        (∃ written, Unfinished doc lookup e written ∧
          Appends (writeChallenge doc lookup) (.error e) written) ∧
        ∀ out, appendChallenge out doc lookup = (out, .error e) := by
  refine ⟨fun spliced h => ⟨appends_writeChallenge h, fun out => ?_⟩,
    fun e h => ⟨exists_appends_writeChallenge h, fun out => ?_⟩⟩
  · rw [appendChallenge_eq, h]
  · rw [appendChallenge_eq, h]

/-- A buffer that holds a byte, and a challenge whose second goal has no id. -/
example :
    let doc := Bytes.ofString "\x7b\"goals\":[\x7b\"goalId\":\"g\"\x7d,\x7b\x7d]\x7d"
    (Id.run ((writeChallenge doc .empty).run.run [Byte.comma])).2 =
        Bytes.ofString ",\x7b\"goals\":[\x7b\"goalId\":\"g\"" ++ Suffix.default ++
          [Byte.closeBrace] ∧
      (appendChallenge [Byte.comma] doc .empty).1 = [Byte.comma] := by
  decide +kernel

end GoalProgress.Splice
