import GoalProgress.Instant.Reader
import GoalProgress.Proofs.Splice.Served

/-!
# Splicing is an insertion

Splicing puts one run of bytes before the closing brace of an object and changes nothing else: what
is left without this run is the object as it was, byte for byte. What the object says afterwards is
what it said before, followed by the state of the record. Whether the run starts with a comma is
settled by the members of the object alone, and not by what they look like or by the space around
them.
-/
namespace GoalProgress

open Json

namespace Json

/-- Only objects say what an object says. -/
theorem Tree.exists_eq_object {t : Tree} {contents : List (StringValue × Content)}
    (h : t.content = .object contents) :
    ∃ space members, t = .object space members ∧ members.map memberContent = contents := by
  cases t with
  | object space members => exact ⟨space, members, rfl, by simpa using h⟩
  | _ => simp [content] at h

end Json

/-- A goal without a record says that nothing has happened. -/
theorem Suffix.contents_none :
    contents none = [(.text "progress", .number [Byte.zero]),
      (.text "status", .string (.text "not_started")), (.text "completedAt", .string (.text "")),
      (.text "claimedAt", .string (.text ""))] := by
  simp only [contents, ReservedKey.all, List.map_cons, List.map_nil, shownValue, Option.getD_none,
    notStarted, ofInt_zero]
  rfl

/-- A goal with a record says its number, the name of its status and its timestamps; one that is
missing is the empty text. -/
theorem Suffix.contents_some {r : ProgressRecord} {name : String}
    (h : (r.status, name) ∈ [(.notStarted, "not_started"), (.inProgress, "in_progress"),
      (.completed, "completed"), (.claimed, "claimed")]) :
    contents (some r) = [(.text "progress", .number (Decimal.ofInt r.progress.toInt)),
      (.text "status", .string (.text name)),
      (.text "completedAt", .string (.text (r.completedAt.elim "" (timestampText ∘ some)))),
      (.text "claimedAt", .string (.text (r.claimedAt.elim "" (timestampText ∘ some))))] := by
  have hname : r.status.name = name := by
    simp only [List.mem_cons, List.not_mem_nil, or_false, Prod.mk.injEq] at h
    rcases h with ⟨hstatus, rfl⟩ | ⟨hstatus, rfl⟩ | ⟨hstatus, rfl⟩ | ⟨hstatus, rfl⟩ <;>
      rw [hstatus] <;> rfl
  have htimestamp (t : Option Instant) :
      timestampText t = t.elim "" (timestampText ∘ some) := by
    cases t <;> rfl
  rw [← hname, ← htimestamp, ← htimestamp]
  rfl

namespace Splice

/-- **Splicing inserts the state of a record, and nothing else.** In every JSON text that is an
object, the suffix goes before the closing brace, with its comma exactly if the object has members.
The outcome is a JSON text, and it says one thing only: what the object said, and behind it the
progress, the status and the two timestamps of the record. -/
theorem goal_inserts {doc : Bytes} {contents : List (StringValue × Content)}
    (h : Says doc (.object contents)) (record : Option ProgressRecord) :
    (∀ c, Says (goal doc record) c ↔ c = .object (contents ++ Suffix.contents record)) ∧
      ∃ before after, doc = before ++ Byte.closeBrace :: after ∧
        (∀ b ∈ after, isSpace b = true) ∧
        goal doc record =
          before ++ (Suffix.ofRecord? record).drop (if contents.isEmpty then 1 else 0) ++
            Byte.closeBrace :: after := by
  obtain ⟨⟨before, t, after⟩, rfl, hcontent⟩ := h
  obtain ⟨space, members, rfl, rfl⟩ := Tree.exists_eq_object hcontent
  have hsays := says_goal before after space members record
  refine ⟨fun c => ⟨fun hc => hc.unique hsays, fun hc => hc ▸ hsays⟩, ?_⟩
  have hdoc : Tree.paddedText ⟨before, .object space members, after⟩ =
      before.bytes ++ Tree.unclosed space members ++ Byte.closeBrace :: after.bytes := by
    rw [Tree.paddedText, Tree.text_object]
    simp
  refine ⟨_, _, hdoc, after.valid, ?_⟩
  rw [hdoc, goal_unclosed (after.not_mem rfl), suffixBehind, List.isEmpty_map]

/-- An object that ends with another one, with braces in texts and space everywhere. -/
def braced : Padded Tree where
  before := .single Byte.space rfl
  value := .object (.single Byte.lineFeed rfl)
    [⟨.none, .ofString EscapeStyle.full_sound "\x7b", .none,
      ⟨.none, .compactObject [("\"\x7d", .compactArray [.compactObject []])],
        .single Byte.tab rfl⟩⟩]
  after := .single Byte.lineFeed rfl

/-- The record of a goal that has been completed, with a number below zero. -/
def completedRecord : ProgressRecord where
  goalId := "g"
  progress := .ofInt (-2)
  status := .completed
  completedAt := Instant.ofString? "2025-02-01T10:30:05Z"

theorem goal_inserts_braced :
    Tree.paddedText braced =
        Bytes.ofString " \x7b\n\"\x7b\":\x7b\"\\\"\x7d\":[\x7b\x7d]\x7d\t\x7d\n" ∧
      ∃ contents, Says (Tree.paddedText braced) (.object contents) ∧
        Says (goal (Tree.paddedText braced) none)
          (.object (contents ++ [(.text "progress", .number [Byte.zero]),
            (.text "status", .string (.text "not_started")),
            (.text "completedAt", .string (.text "")), (.text "claimedAt", .string (.text ""))])) ∧
        Says (goal (Tree.paddedText braced) (some completedRecord))
          (.object (contents ++ [(.text "progress", .number (Bytes.ofString "-2")),
            (.text "status", .string (.text "completed")),
            (.text "completedAt", .string (.text "2025-02-01T10:30:05Z")),
            (.text "claimedAt", .string (.text ""))])) ∧
        ∃ before after, Tree.paddedText braced = before ++ Byte.closeBrace :: after ∧
          goal (Tree.paddedText braced) none =
            before ++ Suffix.default ++ Byte.closeBrace :: after := by
  have hsays := Tree.says_content braced
  rw [braced, Tree.content_object, ← braced] at hsays
  obtain ⟨hread, before, after, hdoc, _, hgoal⟩ := goal_inserts hsays none
  rw [Suffix.contents_none] at hread
  have hread' := (goal_inserts hsays (some completedRecord)).1
  have hvalues : Suffix.contents (some completedRecord) =
      [(.text "progress", .number (Bytes.ofString "-2")),
        (.text "status", .string (.text "completed")),
        (.text "completedAt", .string (.text "2025-02-01T10:30:05Z")),
        (.text "claimedAt", .string (.text ""))] := by
    have hnumber : Decimal.ofInt completedRecord.progress.toInt = Bytes.ofString "-2" := by
      decide +kernel
    have htime : completedRecord.completedAt.elim "" (Suffix.timestampText ∘ some) =
        "2025-02-01T10:30:05Z" := by decide +kernel
    rw [@Suffix.contents_some completedRecord "completed" (by decide), hnumber, htime]
    rfl
  rw [hvalues] at hread'
  exact ⟨by decide, _, hsays, (hread _).2 rfl, (hread' _).2 rfl, before, after, hdoc, hgoal⟩

end Splice

end GoalProgress
