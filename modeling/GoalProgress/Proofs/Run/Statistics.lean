import GoalProgress.Proofs.Json.Content
import GoalProgress.Proofs.Text.Decimal
import GoalProgress.Run

/-!
# What the statistics report

The statistics are three numbers that are counted in the entries of a cache: its challenges, its
goals, and the bytes of all its documents. As text they stand on a line each, behind what they
count; as JSON they are the members of an object.

## Main definitions

* `Cache.documents`: all documents of a cache.
* `Cache.report`: the statistics of a cache, counted and written out.
-/
namespace GoalProgress

namespace Json.Tree

/-- A member with a number, indented on a line of its own; `after` is the space behind it. -/
def lineMember (name : String) (n : Nat) (after : Space) : Member Tree where
  before := ⟨[Byte.lineFeed, Byte.space, Byte.space], List.all_eq_true.1 rfl⟩
  name := .ofString EscapeStyle.full_sound name
  after := .none
  value := ⟨.single Byte.space isSpace_space, .ofInt n, after⟩

theorem memberText_lineMember (name : String) (h : isVerbatim (Bytes.ofString name) = true)
    (n : Nat) (after : Space) :
    memberText (lineMember name n after) =
      Bytes.ofString "\n  \"" ++ Bytes.ofString name ++ Bytes.ofString "\": " ++
        Decimal.digits n ++ after.bytes := by
  have hname : escape .full (Bytes.ofString name) = Bytes.ofString name :=
    (escape_eq_self_iff EscapeStyle.full_sound _).2 h
  have hbefore : Bytes.ofString "\n  \"" =
      [Byte.lineFeed, Byte.space, Byte.space, Byte.quote] := by decide
  have hbehind : Bytes.ofString "\": " = [Byte.quote, Byte.colon, Byte.space] := by decide
  have hnumber : Decimal.ofInt n = Decimal.digits n := rfl
  simp [memberText, paddedText, lineMember, StringText.quoted, StringText.ofString, hname, hbefore,
    hbehind, hnumber, Tree.ofInt, text, Space.none, Space.single]

end Json.Tree

namespace Cache

open Json (Space Tree)

variable (cache : Cache)

/-- All documents of a cache. -/
def documents : List Bytes :=
  cache.challenges.toList.map (·.2.document) ++ cache.goals.toList.map (·.2)

/-- A number on a line of its own, behind what it counts. -/
def reportLine (name : String) (n : Nat) : Bytes :=
  Bytes.ofString name ++ Bytes.ofString ": " ++ Decimal.digits n ++ [Byte.lineFeed]

/-- The statistics as a JSON object. -/
def reportTree : Tree :=
  .object .none [
    Tree.lineMember "challenges" cache.challenges.toList.length .none,
    Tree.lineMember "goals" cache.goals.toList.length .none,
    Tree.lineMember "total_bytes" cache.documents.flatten.length
      (.single Byte.lineFeed Json.isSpace_lineFeed)]

/-- The statistics of a cache, counted and written out. -/
def report : StatsFormat → Bytes
  | .text =>
    reportLine "challenges" cache.challenges.toList.length ++
      reportLine "goals" cache.goals.toList.length ++
      reportLine "bytes" cache.documents.flatten.length
  | .json => cache.reportTree.text ++ [Byte.lineFeed]

/-- Documents are counted as if they stood one behind the other. -/
theorem totalLength_eq (docs : List Bytes) : totalLength docs = docs.flatten.length := by
  rw [totalLength, List.length_flatten, List.sum_eq_foldl, List.foldl_map]

/-- What the cache is said to hold is what is counted in its entries. -/
theorem stats_eq : cache.stats = {
    challenges := cache.challenges.toList.length
    goals := cache.goals.toList.length
    totalBytes := cache.documents.flatten.length } := by
  rw [stats, documents, List.flatten_append, List.length_append, ← totalLength_eq,
    ← totalLength_eq, Std.ExtTreeMap.length_toList, Std.ExtTreeMap.length_toList]

theorem printLines_stats : cache.stats.printLines = cache.report .text := by
  have hgoals : Bytes.ofString "\ngoals: " =
      Byte.lineFeed :: (Bytes.ofString "goals" ++ Bytes.ofString ": ") := by decide
  have hbytes : Bytes.ofString "\nbytes: " =
      Byte.lineFeed :: (Bytes.ofString "bytes" ++ Bytes.ofString ": ") := by decide
  have hchallenges : Bytes.ofString "challenges: " =
      Bytes.ofString "challenges" ++ Bytes.ofString ": " := by decide
  have hend : Bytes.ofString "\n" = [Byte.lineFeed] := by decide
  simp only [CacheStats.printLines, stats_eq, Bytes.ofString_append, Decimal.ofString_toString,
    report, reportLine, hchallenges, hgoals, hbytes, hend, List.append_assoc, List.cons_append,
    List.nil_append]

theorem printJson_stats : cache.stats.printJson = cache.report .json := by
  have hstart : Bytes.ofString "\x7b\n  \"challenges\": " =
      Byte.openBrace :: (Bytes.ofString "\n  \"" ++ (Bytes.ofString "challenges" ++
        Bytes.ofString "\": ")) := by decide
  have hgoals : Bytes.ofString ",\n  \"goals\": " =
      Byte.comma :: (Bytes.ofString "\n  \"" ++ (Bytes.ofString "goals" ++
        Bytes.ofString "\": ")) := by decide
  have hbytes : Bytes.ofString ",\n  \"total_bytes\": " =
      Byte.comma :: (Bytes.ofString "\n  \"" ++ (Bytes.ofString "total_bytes" ++
        Bytes.ofString "\": ")) := by decide
  have hend : Bytes.ofString "\n\x7d\n" = [Byte.lineFeed, Byte.closeBrace, Byte.lineFeed] := by
    decide
  have hchallenge := Tree.memberText_lineMember "challenges" (by decide)
  have hgoal := Tree.memberText_lineMember "goals" (by decide)
  have htotal := Tree.memberText_lineMember "total_bytes" (by decide)
  simp [CacheStats.printJson, stats_eq, Bytes.ofString_append, Decimal.ofString_toString, report,
    reportTree, Tree.text, hchallenge, hgoal, htotal, hstart, hgoals, hbytes, hend,
    Json.joined_cons, Space.none, Space.single, -Nat.toString_eq_repr]

/-- **The statistics are reported in full**, in either form. -/
theorem print_stats (format : StatsFormat) : cache.stats.print format = cache.report format := by
  cases format with
  | text => exact cache.printLines_stats
  | json => exact cache.printJson_stats

end Cache

end GoalProgress
