import GoalProgress.Progress.Suffix

/-!
# Splicing progress into a goal

The suffix is put before the last closing brace of the goal. If nothing but an opening brace stands
before that brace, the comma at the start of the suffix is left out.
-/
namespace GoalProgress.Splice

/-- Whether an object has no members so far, judged by the last byte that is no blank. -/
def isEmptyObject (body : Bytes) : Bool := body.lastInk? == some Byte.openBrace

/-- The suffix as it has to stand after `body`. -/
def suffixAfter (body : Bytes) (record : Option ProgressRecord) : Bytes :=
  (Suffix.ofRecord? record).drop (if isEmptyObject body then 1 else 0)

/-- A goal document with the progress of a record, or of no record, spliced in. Bytes without a
closing brace are left as they are. -/
def goal (doc : Bytes) (record : Option ProgressRecord) : Bytes :=
  match doc.lastByte? Byte.closeBrace with
  | none => doc
  | some i => doc.take i ++ suffixAfter (doc.take i) record ++ doc.drop i

end GoalProgress.Splice
