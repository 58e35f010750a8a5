import GoalProgress.Splice.Challenge

/-!
# Splicing into a buffer

A challenge is written piece by piece, behind whatever a buffer holds already. If one of its goals
has no id, the goals before it have been written by then, and the buffer is cut back to what it
held.

## Main definitions

* `BufferM`: programs that change a buffer.
* `Splice.writeGoal`, `Splice.writeChallenge`: the pieces in their order.
* `Splice.appendChallenge`: all pieces of a challenge, or nothing.
-/
namespace GoalProgress

/-- A program that changes a buffer. -/
abbrev BufferM := StateM Bytes

namespace Splice

/-- Append bytes. -/
def write (bs : Bytes) : BufferM Unit := modify (· ++ bs)

/-- Append the suffix that shows the state of a record, or of no record. -/
def writeSuffix : Option ProgressRecord → BufferM Unit
  | none => write Suffix.default
  | some r => do
    write (Bytes.ofString ",\"progress\":")
    write (Decimal.ofInt r.progress.toInt)
    write (Bytes.ofString ",\"status\":\"")
    write (Json.escape .short (Bytes.ofString r.status.name))
    write (Bytes.ofString "\",\"completedAt\":\"")
    write (Suffix.timestamp r.completedAt)
    write (Bytes.ofString "\",\"claimedAt\":\"")
    write (Suffix.timestamp r.claimedAt)
    write [Byte.quote]

/-- Append the suffix as it has to stand after `body`: in an object without members its comma is
removed again. -/
def writeSuffixAfter (body : Bytes) (record : Option ProgressRecord) : BufferM Unit := do
  let mark := (← get).length
  writeSuffix record
  if isEmptyObject body then modify (·.eraseIdx mark)

/-- Append a goal document with the progress of a record, or of no record. -/
def writeGoal (doc : Bytes) (record : Option ProgressRecord) : BufferM Unit :=
  match doc.lastByte? Byte.closeBrace with
  | none => write doc
  | some i => do
    write (doc.take i)
    writeSuffixAfter (doc.take i) record
    write (doc.drop i)

/-- Append the comma before a goal that is not the first one. -/
def writeComma (ordinal : Nat) : BufferM Unit :=
  if 0 < ordinal then write [Byte.comma] else pure ()

/-- Append goals, numbered from `ordinal` on, each with its progress. -/
def writeGoals (lookup : Lookup) (ordinal : Nat) : List Bytes → ExceptT Error BufferM Unit
  | [] => pure ()
  | doc :: docs => do
    let id ← MonadExcept.ofExcept ((GoalId.ofGoal doc).mapError (.goalIdExtraction ordinal))
    writeComma ordinal
    writeGoal doc (lookup.get? id)
    writeGoals lookup (ordinal + 1) docs

/-- Append a challenge document with the progress of every goal. -/
def writeChallenge (doc : Bytes) (lookup : Lookup) : ExceptT Error BufferM Unit := do
  let some key := doc.find? goalsKey | write doc
  let some opening := doc.findByte? Byte.openBracket (key + goalsKey.length)
    | throw (.malformedGoals .missingOpening)
  let some closing := Scan.closingBracket? doc opening
    | throw (.malformedGoals .missingClosing)
  let interior := (doc.take closing).drop (opening + 1)
  write (doc.take (opening + 1))
  writeGoals lookup 0 ((Scan.objectSpans interior).map (·.slice interior))
  write (doc.drop closing)

/-- A buffer after appending the spliced form of a challenge. On an error the buffer is cut back to
its length before, beside the error. -/
def appendChallenge (out doc : Bytes) (lookup : Lookup) : Bytes × Except Error Unit :=
  let (result, left) := Id.run ((writeChallenge doc lookup).run.run out)
  match result with
  | .ok () => (left, .ok ())
  | .error e => (left.take out.length, .error e)

end Splice

end GoalProgress
