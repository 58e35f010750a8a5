import GoalProgress.Definition.Printer
import GoalProgress.Proofs.Definition.Repetition
import GoalProgress.Proofs.Json.RoundTrip

/-!
# Definitions are read back

The decoder finds every value of a definition under the name that the printer gives it, and takes it
back: texts, numbers, choices among names, and lists. So definitions without repeated ids are the
ones that are read from their print, in either form of a definitions file.

## Main definitions

* `Definition.wrapped`: a list of challenges as the member of an object.
-/
namespace GoalProgress.Definition

open Json (Value Readable Space)

/-! ## Structures -/

/-- A list is decoded element by element. -/
theorem mapM_map_eq_some {α β γ : Type} {decode : β → Option γ} {encode : α → β} {said : α → γ}
    {as : List α} (h : ∀ a ∈ as, decode (encode a) = some (said a)) :
    (as.map encode).mapM decode = some (as.map said) := by
  induction as with
  | nil => rfl
  | cons a as ih =>
    rw [List.forall_mem_cons] at h
    simp [h.1, ih h.2]

theorem mapM_map_eq_self {α β : Type} {decode : β → Option α} {encode : α → β}
    (h : ∀ a, decode (encode a) = some a) (as : List α) :
    (as.map encode).mapM decode = some as := by
  rw [mapM_map_eq_some fun a _ => h a, List.map_id']

theorem list?_array {α : Type} {decode : Value → Option α} {encode : α → Value}
    (h : ∀ a, decode (encode a) = some a) (as : List α) :
    list? decode (.array (as.map encode)) = some as :=
  mapM_map_eq_self h as

theorem filter_name_eq {ms : List (String × Value)} (h : (ms.map (·.1)).Nodup)
    {m : String × Value} (hm : m ∈ ms) : ms.filter (·.1 == m.1) = [m] := by
  induction ms with
  | nil => cases hm
  | cons first ms ih =>
    rw [List.map_cons, List.nodup_cons] at h
    rcases List.mem_cons.1 hm with rfl | hm
    · have hrest : ms.filter (·.1 == m.1) = [] := by
        rw [List.filter_eq_nil_iff]
        intro other hother heq
        exact h.1 (List.mem_map.2 ⟨other, hother, by simpa using heq⟩)
      rw [List.filter_cons_of_pos (by simp), hrest]
    · have hne : first.1 ≠ m.1 := by
        intro heq
        exact h.1 (heq ▸ List.mem_map_of_mem hm)
      rw [List.filter_cons_of_neg (by simpa using hne), ih h.2 hm]

/-- **The values of an object are found by the names of its members.** -/
theorem members?_object {names : List String} {ms : List (String × Value)}
    (hnames : ms.map (·.1) = names) (h : names.Nodup) :
    members? names (.object ms) = some (ms.map fun m => some m.2) := by
  subst hnames
  rw [members?]
  refine mapM_map_eq_some fun m hm => ?_
  rw [filter_name_eq h hm]

/-! ## Single values -/

theorem choice?_goalKind (k : GoalKind) :
    choice? GoalKind.all GoalKind.name (.string k.name) = some k := by
  cases k <;> rfl

theorem choice?_eventSource (s : EventSource) :
    choice? EventSource.all EventSource.name (.string s.name) = some s := by
  cases s <;> rfl

theorem choice?_rewardKind (k : RewardKind) :
    choice? RewardKind.all RewardKind.name (.string k.name) = some k := by
  cases k <;> rfl

theorem readable_int32 (depth : Nat) (n : Int32) : Readable depth (.ofInt n.toInt) := by
  have hmin := n.minValue_le_toInt
  have hmax := n.toInt_le
  exact .integer (Int.le_trans (by decide) hmin) (Int.le_trans hmax (by decide))

theorem int32?_ofInt (n : Int32) : int32? (.ofInt n.toInt) = some n := by
  have hmin := n.minValue_le_toInt
  have hmax := n.toInt_le
  have hnumber := Json.number?_ofInt (Int.le_trans (by decide) hmin) (Int.le_trans hmax (by decide))
  rw [Value.ofInt, int32?, hnumber]
  simp only
  rw [Json.int32?, if_pos ⟨hmin, hmax⟩, Int32.ofInt_toInt]

/-! ## Definitions -/

theorem requirement?_toJson (r : Requirement) : requirement? r.toJson = some r := by
  rw [requirement?, Requirement.toJson, members?_object]
  · simp [required?, optional?, text?, int32?_ofInt]
  · rfl
  · decide

theorem reward?_toJson (r : Reward) : reward? r.toJson = some r := by
  rw [reward?, Reward.toJson, members?_object]
  · simp [required?, text?, choice?_rewardKind, int32?_ofInt]
  · rfl
  · decide

theorem goal?_toJson (g : Goal) : goal? g.toJson = some g := by
  have htext (s : String) : text? (.string s) = some s := rfl
  have hprerequisites := list?_array htext g.prerequisites
  rw [goal?, Goal.toJson, members?_object]
  · simp [required?, optional?, text?, choice?_goalKind, choice?_eventSource, requirement?_toJson,
      reward?_toJson, hprerequisites]
  · rfl
  · decide

theorem challenge?_toJson (c : Challenge) : challenge? c.toJson = some c := by
  rw [challenge?, Challenge.toJson, members?_object]
  · simp [required?, optional?, text?, list?_array goal?_toJson]
  · rfl
  · decide

/-! ## Nesting -/

theorem readable_requirement (depth : Nat) (r : Requirement) : Readable (depth + 1) r.toJson := by
  refine .object ?_
  simp [readable_int32, Readable.string]

theorem readable_reward (depth : Nat) (r : Reward) : Readable (depth + 1) r.toJson := by
  refine .object ?_
  simp [readable_int32, Readable.string]

theorem readable_texts (depth : Nat) (ss : List String) :
    Readable (depth + 1) (.array (ss.map .string)) := by
  refine .array ?_
  simp [Readable.string]

theorem readable_goal (depth : Nat) (g : Goal) : Readable (depth + 2) g.toJson := by
  refine .object ?_
  simp [readable_requirement, readable_reward, readable_texts, Readable.string]

theorem readable_challenge (depth : Nat) (c : Challenge) : Readable (depth + 4) c.toJson := by
  have hgoals : Readable (depth + 3) (.array (c.goals.map Goal.toJson)) := by
    refine .array ?_
    simp [readable_goal]
  refine .object ?_
  simp [hgoals, Readable.string]

theorem readable_challenges (depth : Nat) (cs : List Challenge) :
    Readable (depth + 5) (.array (cs.map Challenge.toJson)) := by
  refine .array ?_
  simp [readable_challenge]

/-! ## Files -/

theorem decode_of_read {text : Bytes} {v : Value} {cs : List Challenge}
    (hread : Value.read Json.maxDepth text = .ok (v, [])) (hv : challenges? v = some cs) :
    decode text = .ok cs := by
  rw [decode, hread]
  simp [hv, bind, Except.bind, Json.expectNothing, Json.skipSpace, pure, Except.pure]

theorem decode_printAll (cs : List Challenge) : decode (Challenge.printAll cs) = .ok cs := by
  have hread : Value.read Json.maxDepth (Challenge.printAll cs ++ []) =
      .ok (.array (cs.map Challenge.toJson), []) := (readable_challenges 122 cs).read_print nofun
  rw [List.append_nil] at hread
  refine decode_of_read hread ?_
  exact mapM_map_eq_self challenge?_toJson cs

/-- A text as the member `challenges` of an object, with space around it. -/
def wrapped (before : Space) (text : Bytes) (after : Space) : Bytes :=
  Bytes.ofString "\x7b\"challenges\":" ++
    (before.bytes ++ (text ++ (after.bytes ++ Bytes.ofString "\x7d")))

theorem decode_wrapped (before after : Space) (cs : List Challenge) :
    decode (wrapped before (Challenge.printAll cs) after) = .ok cs := by
  have hopen : Bytes.ofString "\x7b\"challenges\":" =
    Byte.openBrace :: (Json.quoted .full "challenges" ++ [Byte.colon]) := by decide
  have hclose : Bytes.ofString "\x7d" = [Byte.closeBrace] := by decide
  have hread := (readable_challenges 121 cs).read_member "challenges" before after []
  refine decode_of_read (v := .object [("challenges", .array (cs.map Challenge.toJson))]) ?_ ?_
  · rw [← hread, wrapped, hopen, hclose, Challenge.printAll]
    simp [Json.maxDepth]
  · simp [challenges?, list?_array challenge?_toJson]

/-- **Definitions are read back from their print**, bare or as the member `challenges` of an object
with any space around it, if no id is repeated. So what has been read once is read again from its
print. -/
theorem parse_printAll (path : String) :
    (∀ cs : List Challenge, (cs.map (·.id)).Nodup → ((cs.flatMap (·.goals)).map (·.id)).Nodup →
      parse (Challenge.printAll cs) path = .ok cs ∧
        ∀ before after, parse (wrapped before (Challenge.printAll cs) after) path = .ok cs) ∧
    ∀ text origin cs, parse text origin = .ok cs →
      parse (Challenge.printAll cs) path = .ok cs ∧
        ∀ before after, parse (wrapped before (Challenge.printAll cs) after) path = .ok cs := by
  have hback (cs : List Challenge) (h : firstRepetition? cs = none) :
      parse (Challenge.printAll cs) path = .ok cs ∧
        ∀ before after, parse (wrapped before (Challenge.printAll cs) after) path = .ok cs :=
    ⟨parse_eq_ok_iff.2 ⟨decode_printAll cs, h⟩,
      fun before after => parse_eq_ok_iff.2 ⟨decode_wrapped before after cs, h⟩⟩
  refine ⟨fun cs hchallenges hgoals => ?_, fun text origin cs h => ?_⟩
  · exact hback cs ((firstRepetition?_eq_none_iff cs).2 ⟨hchallenges, hgoals⟩)
  · exact hback cs (firstRepetition?_of_parse h)

/-- Two challenges whose texts need every kind of escape, with numbers at both ends. -/
def awkward : List Challenge := [
  { id := "\\"
    name := "\"challenges\":["
    description := "\n\t\x01é"
    goals := [
      { id := "\""
        name := ""
        kind := .daily
        eventSource := .login
        requirement := ⟨"\x00", "<", Int32.minValue⟩
        reward := ⟨.wallet, "\u2028", Int32.maxValue⟩
        prerequisites := ["", "]"] }] },
  { id := "", name := "😀" }]

theorem parse_printAll_awkward :
    (awkward.map (·.id)).Nodup ∧ ((awkward.flatMap (·.goals)).map (·.id)).Nodup ∧
      parse (Challenge.printAll awkward) "d.json" = .ok awkward ∧
      parse (wrapped .none (Challenge.printAll awkward) .none) "d.json" = .ok awkward ∧
      parse (Challenge.printAll awkward) "e.json" = .ok awkward := by
  have hchallenges : (awkward.map (·.id)).Nodup := by decide
  have hgoals : ((awkward.flatMap (·.goals)).map (·.id)).Nodup := by decide
  obtain ⟨hbare, hwrapped⟩ := (parse_printAll "d.json").1 awkward hchallenges hgoals
  exact ⟨hchallenges, hgoals, hbare, hwrapped .none .none,
    ((parse_printAll "e.json").2 _ "d.json" awkward (hwrapped .none .none)).1⟩

end GoalProgress.Definition
