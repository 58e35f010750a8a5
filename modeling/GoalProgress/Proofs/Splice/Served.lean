import GoalProgress.Proofs.Document.Members
import GoalProgress.Proofs.Json.Unambiguous
import GoalProgress.Proofs.Splice.Object

/-!
# What a served goal says

Splicing puts four members behind those that a goal has. The check keeps their names out of the goal
as they are spelled, but a name can be spelled with escapes too. So each of the four names stands in
the served goal once, with the value of the record, unless an escaped name in the goal stands for
it.

## Main definitions

* `Suffix.shownValue`, `Suffix.contents`: what a suffix says.
* `Splice.NamedOnce`: members that have each reserved name once, with the value of a record.
-/
namespace GoalProgress

open Json

/-! ## What a suffix says -/

namespace Suffix

/-- A timestamp as a text. -/
def timestampText (t : Option Instant) : String :=
  String.ofList ((timestamp t).map fun b => Char.ofNat b.toNat)

theorem ofString_timestampText (t : Option Instant) :
    Bytes.ofString (timestampText t) = timestamp t := by
  rw [timestampText, Bytes.ofString_ofList,
    Bytes.ofChars_map_ofNat fun b hb => (isPlain_timestamp t b hb).1]

/-- The value that a goal shows under a reserved name, with the state of a record or of none. -/
def shownValue (record : Option ProgressRecord) : ReservedKey → Content
  | .progress => .number (Decimal.ofInt (record.getD notStarted).progress.toInt)
  | .status => .string (.text (record.getD notStarted).status.name)
  | .completedAt => .string (.text (timestampText (record.getD notStarted).completedAt))
  | .claimedAt => .string (.text (timestampText (record.getD notStarted).claimedAt))

/-- What a suffix says: a value for each of the reserved names. -/
def contents (record : Option ProgressRecord) : List (StringValue × Content) :=
  ReservedKey.all.map fun k => (.text k.name, shownValue record k)

theorem content_timestampTree (t : Option Instant) :
    (timestampTree t).content = .string (.text (timestampText t)) := by
  rw [timestampTree, Tree.content, StringText.value_of_bytes (ofString_timestampText t).symm]
  intro hmem
  exact absurd (isPlain_timestamp t _ hmem).2 (by decide)

/-- **A suffix says what its record says.** -/
theorem memberContent_suffixMembers (record : Option ProgressRecord) :
    (Splice.suffixMembers record).map Tree.memberContent = contents record := by
  have hname (name : String) (t : Tree) (h : isVerbatim (Bytes.ofString name) = true) :
      Tree.memberContent (Tree.member name t) = (.text name, t.content) :=
    Prod.ext (StringText.value_ofString EscapeStyle.full_sound h) rfl
  have hstatus (s : Status) : isVerbatim (Bytes.ofString s.name) = true := by
    cases s <;> decide
  have hvalue : (Tree.string (.ofString EscapeStyle.short_sound
      (record.getD notStarted).status.name)).content =
        .string (.text (record.getD notStarted).status.name) := by
    rw [Tree.content, StringText.value_ofString EscapeStyle.short_sound (hstatus _)]
  simp only [Splice.suffixMembers, members, List.map_cons, List.map_nil]
  rw [hname _ _ (by decide), hname _ _ (by decide), hname _ _ (by decide), hname _ _ (by decide),
    hvalue, content_timestampTree, content_timestampTree, Tree.ofInt, Tree.content]
  rfl

theorem filter_contents (record : Option ProgressRecord) (k : ReservedKey) :
    (contents record).filter (·.1 = .text k.name) = [(.text k.name, shownValue record k)] := by
  cases k <;> rfl

end Suffix

/-! ## What a goal says -/

namespace Splice

/-- **In a text the suffix becomes members of the object**, whatever space is around it. -/
theorem goal_paddedText (before after : Space) (space : Space) (members : List (Member Tree))
    (record : Option ProgressRecord) :
    goal (Tree.paddedText ⟨before, .object space members, after⟩) record =
      Tree.paddedText ⟨before, .object space (members ++ suffixMembers record), after⟩ :=
  goal_around (after.not_mem rfl) before.bytes space members record

/-- **A goal is served with what it says and the state of its record.** -/
theorem says_goal (before after space : Space) (members : List (Member Tree))
    (record : Option ProgressRecord) :
    Says (goal (Tree.paddedText ⟨before, .object space members, after⟩) record)
      (.object (members.map Tree.memberContent ++ Suffix.contents record)) := by
  refine ⟨⟨before, .object space (members ++ suffixMembers record), after⟩, goal_paddedText .., ?_⟩
  rw [Tree.content_object, List.map_append, Suffix.memberContent_suffixMembers]

/-- Members that have each reserved name once, with the value that a record shows. -/
def NamedOnce (record : Option ProgressRecord) (members : List (StringValue × Content)) : Prop :=
  ∀ k : ReservedKey,
    members.filter (·.1 = .text k.name) = [(.text k.name, Suffix.shownValue record k)]

/-- Behind other members those of a suffix are the only ones of their names exactly if the others
have none of these names. -/
theorem namedOnce_append_contents_iff (record : Option ProgressRecord)
    (members : List (StringValue × Content)) :
    NamedOnce record (members ++ Suffix.contents record) ↔
      ∀ m ∈ members, ∀ k : ReservedKey, m.1 ≠ .text k.name := by
  have hkey (k : ReservedKey) : (members ++ Suffix.contents record).filter (·.1 = .text k.name) =
      [(.text k.name, Suffix.shownValue record k)] ↔ ∀ m ∈ members, m.1 ≠ .text k.name := by
    rw [List.filter_append, Suffix.filter_contents, List.append_left_eq_self,
      List.filter_eq_nil_iff]
    simp only [decide_eq_true_eq]
  simp only [NamedOnce, hkey]
  exact ⟨fun h m hm k => h k m hm, fun h k m hm => h m hm k⟩

/-- In a document that passes the check, a member stands for a reserved name only if its name has an
escape. -/
theorem name_value_ne {id : String} {before after space : Space} {members : List (Member Tree)}
    (hcheck : Document.check id (Tree.paddedText ⟨before, .object space members, after⟩) = .ok ())
    {m : Member Tree} (hm : m ∈ members) (hs : Byte.backslash ∉ m.name.bytes) (k : ReservedKey) :
    m.name.value ≠ .text k.name := by
  rw [Document.check_eq_ok_iff, Document.fault?_text_eq_none_iff] at hcheck
  intro hvalue
  obtain ⟨t, ht, hbytes⟩ := StringText.exists_value_eq hs
  rw [ht, StringValue.text.injEq] at hvalue
  have hreserved : Bytes.ofString k.name ∈ Document.reservedNames := by cases k <;> decide
  refine hcheck.2 _ hreserved ⟨space, members, .self, m, hm, ?_⟩
  rw [hbytes, hvalue]

/-- **A served goal has each reserved name once**, with the value of the record, exactly if no name
of the goal is an escaped spelling of one. All other names are settled by the check. -/
theorem exists_says_goal_namedOnce_iff {id : String} {before after space : Space}
    {members : List (Member Tree)}
    (hcheck : Document.check id (Tree.paddedText ⟨before, .object space members, after⟩) = .ok ())
    (record : Option ProgressRecord) :
    ∃ shown, Says (goal (Tree.paddedText ⟨before, .object space members, after⟩) record)
        (.object shown) ∧
      shown = members.map Tree.memberContent ++ Suffix.contents record ∧
      (NamedOnce record shown ↔ ∀ m ∈ members, Byte.backslash ∈ m.name.bytes →
        ∀ k : ReservedKey, m.name.value ≠ .text k.name) := by
  refine ⟨_, says_goal before after space members record, rfl, ?_⟩
  rw [namedOnce_append_contents_iff, List.forall_mem_map]
  refine forall₂_congr fun m hm => ⟨fun h _ => h, fun h => ?_⟩
  by_cases hs : Byte.backslash ∈ m.name.bytes
  · exact h hs
  · exact name_value_ne hcheck hm hs

/-- The progress as a member whose name is spelled with an escape. -/
def escapedProgress : Member Tree where
  before := .none
  name := ⟨Bytes.ofString "\\u0070rogress", .digits (a := 0x30) (b := 0x30) (c := 0x37) (d := 0x30)
    (List.all_eq_true.1 rfl)
    (isStringText_of_all (Bytes.ofString "rogress") (by decide))⟩
  after := .none
  value := ⟨.none, .number ⟨Bytes.ofString "5", [], Bytes.ofString "5", [], [], by decide, .inl rfl,
    ⟨⟨by decide, List.all_eq_true.1 rfl⟩, by decide⟩, .inl rfl, .inl rfl⟩, .none⟩

theorem value_escapedProgress : escapedProgress.name.value = .text "progress" :=
  StringText.value_of_read [] rfl

/-- A goal with a reserved name only in a text and, escaped, in an object inside. -/
def escapedInside : Member Tree where
  before := ⟨[Byte.space], List.all_eq_true.1 rfl⟩
  name := .ofString EscapeStyle.full_sound "\"status\":"
  after := ⟨[Byte.tab], List.all_eq_true.1 rfl⟩
  value := ⟨⟨[Byte.lineFeed], List.all_eq_true.1 rfl⟩, .object .none [escapedProgress], .none⟩

theorem exists_says_goal_namedOnce_escapedInside :
    Document.check "g" (Tree.paddedText ⟨.none, .object .none [escapedInside], .none⟩) = .ok () ∧
      ∃ shown, Says (goal (Tree.paddedText ⟨.none, .object .none [escapedInside], .none⟩) none)
        (.object shown) ∧ NamedOnce none shown := by
  have hcheck : Document.check "g" (Tree.paddedText
      ⟨.none, .object .none [escapedInside], .none⟩) = .ok () := by
    rw [Document.check_eq_ok_iff]
    decide
  obtain ⟨shown, hsays, _, hnamed⟩ := exists_says_goal_namedOnce_iff hcheck none
  refine ⟨hcheck, shown, hsays, hnamed.2 ?_⟩
  have hvalue : escapedInside.name.value = .text "\"status\":" :=
    StringText.value_of_read [] rfl
  intro m hm _ k
  rw [List.mem_singleton.1 hm, hvalue, ne_eq, StringValue.text.injEq]
  cases k <;> decide

/-- The escaped name passes the check, and the goal is served with two members that stand for it. -/
theorem goal_escapedProgress :
    Tree.paddedText ⟨.none, .object .none [escapedProgress], .none⟩ =
        Bytes.ofString "\x7b\"\\u0070rogress\":5\x7d" ∧
      Document.check "g" (Tree.paddedText ⟨.none, .object .none [escapedProgress], .none⟩) =
        .ok () ∧
      ∃ shown, Says (goal (Tree.paddedText ⟨.none, .object .none [escapedProgress], .none⟩) none)
          (.object shown) ∧
        shown.filter (·.1 = .text "progress") = [(.text "progress", .number (Bytes.ofString "5")),
          (.text "progress", Suffix.shownValue none .progress)] ∧
        ∀ other, Says (goal (Tree.paddedText ⟨.none, .object .none [escapedProgress], .none⟩) none)
          (.object other) → other = shown := by
  refine ⟨by decide, ?_, _, says_goal .none .none .none [escapedProgress] none, ?_, ?_⟩
  · rw [Document.check_eq_ok_iff]
    decide
  · have hnone := Suffix.filter_contents none .progress
    rw [ReservedKey.name] at hnone
    rw [List.filter_append, hnone, List.map_singleton, Tree.memberContent, value_escapedProgress]
    rfl
  · intro other hother
    exact Content.object.inj (hother.unique (says_goal .none .none .none [escapedProgress] none))

end Splice

end GoalProgress
