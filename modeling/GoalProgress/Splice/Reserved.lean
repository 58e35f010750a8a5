import GoalProgress.Splice.Goal

/-!
# Splicing with room reserved

A goal with its progress is written piece by piece into a buffer of its own, for which room is
reserved beforehand: for the document, and for the longest suffix that there can be. A buffer
without room for what comes next gets more of it, and its bytes are moved there.

## Main definitions

* `Buffer.append`: more bytes in a buffer, and more room for them if need be.
* `Splice.putGoal`: a goal with its progress, in its pieces.
* `Splice.reservedSuffix`, `Splice.reservedGoal`: a suffix and a goal in buffers of their own.
-/
namespace GoalProgress

/-- How room is handed out: as much as is needed, and some more. -/
structure Allocator where
  /-- What a new buffer gets beyond the room that it asks for. -/
  spare : (wanted : Nat) → Nat
  /-- What a buffer gets beyond the room that it needs, if it has less. -/
  growth : (capacity needed : Nat) → Nat

/-- Bytes, and the number of bytes that there is room for. -/
structure Buffer where
  bytes : Bytes
  capacity : Nat
  /-- How often the bytes have been moved to get more room. -/
  moves : Nat
deriving DecidableEq, Repr

namespace Buffer

/-- An empty buffer with room for `wanted` bytes. -/
def withRoom (a : Allocator) (wanted : Nat) : Buffer := ⟨[], wanted + a.spare wanted, 0⟩

/-- The buffer with more bytes at its end. -/
def append (a : Allocator) (b : Buffer) (bs : Bytes) : Buffer :=
  let needed := (b.bytes ++ bs).length
  if needed ≤ b.capacity then { b with bytes := b.bytes ++ bs }
  else ⟨b.bytes ++ bs, needed + a.growth b.capacity needed, b.moves + 1⟩

/-- The buffer without the byte at position `i`. It keeps its room. -/
def remove (b : Buffer) (i : Nat) : Buffer := { b with bytes := b.bytes.eraseIdx i }

end Buffer

/-- The pieces in which a suffix is written. -/
def Suffix.pieces : Option ProgressRecord → List Bytes
  | none => [default]
  | some r =>
    [Bytes.ofString ",\"progress\":", Decimal.ofInt r.progress.toInt,
      Bytes.ofString ",\"status\":\"", Json.escape .short (Bytes.ofString r.status.name),
      Bytes.ofString "\",\"completedAt\":\"", timestamp r.completedAt,
      Bytes.ofString "\",\"claimedAt\":\"", timestamp r.claimedAt, [Byte.quote]]

namespace Splice

/-- A program that changes a buffer and its room. -/
abbrev RoomM := StateM Buffer

variable (a : Allocator)

/-- Append bytes. -/
def put (bs : Bytes) : RoomM Unit := modify (·.append a bs)

/-- Append the suffix that shows the state of a record, or of no record. -/
def putSuffix (record : Option ProgressRecord) : RoomM Unit := (Suffix.pieces record).forM (put a)

/-- Append the suffix as it has to stand after `body`: in an object without members its comma is
removed again. -/
def putSuffixAfter (body : Bytes) (record : Option ProgressRecord) : RoomM Unit := do
  let mark := (← get).bytes.length
  putSuffix a record
  if isEmptyObject body then modify (·.remove mark)

/-- Append a goal document with the progress of a record, or of no record. -/
def putGoal (doc : Bytes) (record : Option ProgressRecord) : RoomM Unit :=
  match doc.lastByte? Byte.closeBrace with
  | none => put a doc
  | some i => do
    put a (doc.take i)
    putSuffixAfter a (doc.take i) record
    put a (doc.drop i)

/-- The buffer of a suffix that is written by itself. -/
def reservedSuffix (record : Option ProgressRecord) : Buffer :=
  ((putSuffix a record).run (.withRoom a Suffix.maxLength)).2

/-- The buffer of a goal that is written by itself. -/
def reservedGoal (doc : Bytes) (record : Option ProgressRecord) : Buffer :=
  ((putGoal a doc record).run (.withRoom a (doc.length + Suffix.maxLength))).2

end Splice

end GoalProgress
