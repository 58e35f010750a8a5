import GoalProgress.Cache
import GoalProgress.Proofs.Definition.Tree
import GoalProgress.Proofs.Document.Names

/-!
# Definitions are fit for caching

The document of a definition always has a closing brace, and none of its member names is reserved.
What its texts contain makes no difference to the check.
-/
namespace GoalProgress

open Json

/-- A JSON text with a closing brace and without reserved names is fit for caching. -/
theorem Document.check_text (id : String) {t : Tree} (hbrace : Byte.closeBrace ∈ t.text)
    (hnames : ∀ name ∈ t.names, Document.named? name = none) :
    Document.check id t.text = .ok () := by
  have hreserved : Document.reservedFrom? 0 none t.text = none := by
    have hfirst := Document.firstReserved?_text t.tight
    rw [Tree.paddedText_tight, Document.firstReserved?] at hfirst
    rw [hfirst]
    exact List.findSome?_eq_none_iff.2 hnames
  have hlast : ¬ (t.text.lastByte? Byte.closeBrace).isNone := by
    simpa [Bytes.lastByte?_eq_none_iff] using hbrace
  rw [Document.check_eq_ok_iff, Document.fault?, if_neg hlast, hreserved]
  rfl

theorem Json.Tree.closeBrace_mem_text_compactObject (members : List (String × Tree)) :
    Byte.closeBrace ∈ (compactObject members).text := by
  rw [text_compactObject]
  exact List.mem_cons_of_mem _ (List.mem_append_right _ (List.mem_singleton_self _))

/-- No member of a goal has a reserved name. -/
theorem Goal.named?_names (g : Goal) : ∀ name ∈ (g.tree []).names, Document.named? name = none := by
  have hnames : (g.tree []).names = ["goalId", "name", "description", "type", "eventSource",
      "requirement", "statCode", "operator", "targetValue", "reward", "type", "rewardId",
      "quantity", "prerequisites"].map fun name => escape .full (Bytes.ofString name) := by
    simp [tree, members, Requirement.tree, Reward.tree]
  rw [hnames]
  decide

theorem Goal.check_print (g : Goal) (id : String) : Document.check id g.print = .ok () := by
  rw [← g.text_tree_nil]
  exact Document.check_text id (Tree.closeBrace_mem_text_compactObject _) g.named?_names

/-- No member of a challenge has a reserved name, and no member of its goals. -/
theorem Challenge.named?_names (c : Challenge) :
    ∀ name ∈ (c.tree (c.goals.map (·.tree []))).names, Document.named? name = none := by
  have hnames : (c.tree (c.goals.map (·.tree []))).names =
      ["challengeId", "name", "description", "goals"].map
          (fun name => escape .full (Bytes.ofString name)) ++
        c.goals.flatMap fun g => (g.tree []).names := by
    simp [tree, List.flatMap_map]
  have hown : ∀ name ∈ ["challengeId", "name", "description", "goals"].map
      (fun name => escape .full (Bytes.ofString name)), Document.named? name = none := by decide
  rw [hnames, List.forall_mem_append]
  refine ⟨hown, ?_⟩
  intro name hname
  obtain ⟨g, _, hg⟩ := List.mem_flatMap.1 hname
  exact g.named?_names name hg

theorem Challenge.check_print (c : Challenge) (id : String) :
    Document.check id c.print = .ok () := by
  rw [← c.text_tree_print]
  exact Document.check_text id (Tree.closeBrace_mem_text_compactObject _) c.named?_names

/-- A check of every element passes if it passes for each of them. -/
theorem forM_eq_ok_iff {α : Type} {check : α → Except Error Unit} {as : List α} :
    as.forM check = .ok () ↔ ∀ a ∈ as, check a = .ok () := by
  induction as with
  | nil => exact iff_of_true rfl nofun
  | cons a as ih =>
    rw [List.forall_mem_cons, ← ih, List.forM]
    cases h : check a with
    | error e => simp [bind, Except.bind]
    | ok _ => simp [bind, Except.bind]

/-- **Every definition is fit for caching.** -/
theorem Prepared.check_ofChallenge (c : Challenge) : (Prepared.ofChallenge c).check = .ok () := by
  have hgoals : ∀ p ∈ (Prepared.ofChallenge c).goals, Document.check p.1 p.2 = .ok () := by
    intro p hp
    obtain ⟨g, _, rfl⟩ := List.mem_map.1 hp
    exact g.check_print g.id
  rw [Prepared.check, Prepared.ofChallenge, c.check_print]
  exact forM_eq_ok_iff.2 hgoals

end GoalProgress
