import GoalProgress.Proofs.Scan.Braced
import GoalProgress.Proofs.Scan.Bracket
import GoalProgress.Splice.Challenge

/-!
# A challenge document cut at its goals

Splicing cuts a document around the array of its goals before it looks at any progress. What it
then does is decided by the parts: the goals are spliced one by one, and the rest is kept.

## Main definitions

* `Splice.Cut`: the parts of a document; `Splice.Cut.goals`: the goals in it.
* `Splice.cut`: the parts that splicing works on.
-/
namespace GoalProgress.Splice

/-- The parts of a document with an array of goals. -/
structure Cut where
  /-- The bytes up to the opening bracket of the array, and the bracket. -/
  before : Bytes
  interior : Bytes
  /-- The closing bracket of the array, and the bytes behind it. -/
  after : Bytes

/-- The goals between the brackets. -/
def Cut.goals (c : Cut) : List Bytes := (Scan.objectSpans c.interior).map (·.slice c.interior)

/-- The parts that splicing works on, if the document names any goals. -/
def cut (doc : Bytes) : Except Error (Option Cut) := do
  let some key := doc.find? goalsKey | return none
  let some opening := doc.findByte? Byte.openBracket (key + goalsKey.length)
    | throw (.malformedGoals .missingOpening)
  let some closing := Scan.closingBracket? doc opening
    | throw (.malformedGoals .missingClosing)
  return some ⟨doc.take (opening + 1), (doc.take closing).drop (opening + 1), doc.drop closing⟩

/-- **Splicing cuts the document and then splices the goals, and nothing else.** -/
theorem challenge_eq_cut (doc : Bytes) (lookup : Lookup) :
    challenge doc lookup = (do
      match ← cut doc with
      | none => return doc
      | some c =>
        return c.before ++ Json.joined (← numberedGoals lookup 0 c.goals) ++ c.after) := by
  rw [challenge, cut]
  cases doc.find? goalsKey with
  | none => rfl
  | some key =>
    simp only
    cases doc.findByte? Byte.openBracket (key + goalsKey.length) with
    | none => rfl
    | some opening =>
      simp only
      cases Scan.closingBracket? doc opening with
      | none => rfl
      | some closing =>
        simp only [interior, Cut.goals, bind_assoc, pure_bind]
        rfl

/-- If splicing succeeds, it has cut the document and spliced all of its goals, or the document
names none. -/
theorem challenge_eq_ok_iff {doc spliced : Bytes} {lookup : Lookup} :
    challenge doc lookup = .ok spliced ↔
      (cut doc = .ok none ∧ spliced = doc) ∨
        ∃ c goals, cut doc = .ok (some c) ∧ numberedGoals lookup 0 c.goals = .ok goals ∧
          spliced = c.before ++ Json.joined goals ++ c.after := by
  rw [challenge_eq_cut]
  cases cut doc with
  | error e => simp [bind, Except.bind]
  | ok c? =>
    cases c? with
    | none => simp [bind, Except.bind, pure, Except.pure, eq_comm]
    | some c =>
      cases hgoals : numberedGoals lookup 0 c.goals <;>
        simp [bind, Except.bind, pure, Except.pure, hgoals, eq_comm]

/-- Behind a goal with an id the next ones are spliced. -/
theorem numberedGoals_cons_of_ok {doc : Bytes} {id : String} (h : GoalId.ofGoal doc = .ok id)
    (lookup : Lookup) (ordinal : Nat) (docs : List Bytes) :
    numberedGoals lookup ordinal (doc :: docs) =
      (numberedGoals lookup (ordinal + 1) docs).map (goal doc (lookup.get? id) :: ·) := by
  rw [numberedGoals, numberedGoal, h]
  rfl

/-- A goal without an id ends the splicing. -/
theorem numberedGoals_cons_of_error {doc : Bytes} {cause : GoalIdError}
    (h : GoalId.ofGoal doc = .error cause) (lookup : Lookup) (ordinal : Nat) (docs : List Bytes) :
    numberedGoals lookup ordinal (doc :: docs) = .error (.goalIdExtraction ordinal cause) := by
  rw [numberedGoals, numberedGoal, h]
  rfl

/-- Goals are spliced one by one, and all of them or none. -/
theorem numberedGoals_cons_eq_ok {lookup : Lookup} {ordinal : Nat} {doc : Bytes}
    {docs spliced : List Bytes} (h : numberedGoals lookup ordinal (doc :: docs) = .ok spliced) :
    ∃ id rest, GoalId.ofGoal doc = .ok id ∧
      numberedGoals lookup (ordinal + 1) docs = .ok rest ∧
      spliced = goal doc (lookup.get? id) :: rest := by
  cases hid : GoalId.ofGoal doc with
  | error cause =>
    rw [numberedGoals_cons_of_error hid] at h
    cases h
  | ok id =>
    rw [numberedGoals_cons_of_ok hid] at h
    cases hrest : numberedGoals lookup (ordinal + 1) docs with
    | error e =>
      rw [hrest] at h
      cases h
    | ok rest =>
      rw [hrest] at h
      exact ⟨id, rest, rfl, rfl, (Except.ok.inj h).symm⟩

/-- A document that names goals is cut at a bracket behind their name, or fails for one of its
brackets. -/
theorem cut_cases (doc : Bytes) :
    cut doc = .ok none ∨ (∃ fault, cut doc = .error (.malformedGoals fault)) ∨
      ∃ key opening c, doc.find? goalsKey = some key ∧
        doc.findByte? Byte.openBracket (key + goalsKey.length) = some opening ∧
        cut doc = .ok (some c) := by
  rw [cut]
  cases doc.find? goalsKey with
  | none => exact .inl rfl
  | some key =>
    refine .inr ?_
    cases hopening : doc.findByte? Byte.openBracket (key + goalsKey.length) with
    | none =>
      simp only [hopening]
      exact .inl ⟨_, rfl⟩
    | some opening =>
      simp only [hopening]
      cases Scan.closingBracket? doc opening with
      | none => exact .inl ⟨_, rfl⟩
      | some closing => exact .inr ⟨key, opening, _, rfl, hopening, rfl⟩

/-- A document is cut at a bracket behind the name of the goals. -/
theorem exists_of_cut_eq_some {doc : Bytes} {c : Cut} (h : cut doc = .ok (some c)) :
    ∃ key opening, doc.find? goalsKey = some key ∧
      doc.findByte? Byte.openBracket (key + goalsKey.length) = some opening := by
  rcases cut_cases doc with hcut | ⟨_, hcut⟩ | ⟨key, opening, _, hkey, hopening, _⟩
  · rw [hcut] at h
    cases h
  · rw [hcut] at h
    cases h
  · exact ⟨key, opening, hkey, hopening⟩

/-- A document is cut around the interior of the array that opens behind the name of the goals, if
the interior is balanced. -/
theorem cut_eq {before goals rest : Bytes} {key : Nat} (hgoals : Scan.Balanced goals)
    (hkey : Bytes.find? (before ++ Byte.openBracket :: (goals ++ Byte.closeBracket :: rest))
      goalsKey = some key)
    (hopening : Bytes.findByte?
      (before ++ Byte.openBracket :: (goals ++ Byte.closeBracket :: rest)) Byte.openBracket
      (key + goalsKey.length) = some before.length) :
    cut (before ++ Byte.openBracket :: (goals ++ Byte.closeBracket :: rest)) =
      .ok (some ⟨before ++ [Byte.openBracket], goals, Byte.closeBracket :: rest⟩) := by
  have hclosing := Scan.closingBracket?_balanced hgoals before rest
  have hupTo (bs : Bytes) : (before ++ Byte.openBracket :: bs).take (before.length + 1) =
      before ++ [Byte.openBracket] := by
    rw [List.append_cons]
    exact List.take_left' (by simp)
  have hslice : ((before ++ Byte.openBracket :: (goals ++ Byte.closeBracket :: rest)).take
      (before.length + 1 + goals.length)).drop (before.length + 1) = goals := by
    rw [List.append_cons, ← List.append_assoc, List.take_left' (by simp; omega)]
    exact List.drop_left' (by simp)
  have hfrom : (before ++ Byte.openBracket :: (goals ++ Byte.closeBracket :: rest)).drop
      (before.length + 1 + goals.length) = Byte.closeBracket :: rest := by
    rw [List.append_cons, ← List.append_assoc]
    exact List.drop_left' (by simp; omega)
  simp only [cut, hkey, hopening, hclosing, hslice, hupTo, hfrom]
  rfl

/-- **Every goal that is spliced has a closing brace**, in whatever document. -/
theorem Cut.closeBrace_mem_goals (c : Cut) : ∀ goal ∈ c.goals, Byte.closeBrace ∈ goal := by
  intro goal hgoal
  obtain ⟨span, hspan, rfl⟩ := List.mem_map.1 hgoal
  exact (Scan.objectSpans_braced c.interior span hspan).closeBrace_mem

end GoalProgress.Splice
