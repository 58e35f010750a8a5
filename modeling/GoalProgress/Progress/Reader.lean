import GoalProgress.Instant.Reader
import GoalProgress.Json.Skip
import GoalProgress.Progress.Record

/-!
# Reading progress files

A progress file is a JSON array of records. It is read from front to back, and the first problem met
is the one reported. A record is an object whose members may stand in any order, unknown ones being
passed over, or an array with the eight values in order. All members but the goal id may be missing.

## Main definitions

* `ProgressRecord.read`: one record.
* `ProgressRecord.readFile`: all records of a file.
-/
namespace GoalProgress.ProgressRecord

open Json

/-! ## Values of members -/

/-- A text. -/
def readText (text : Bytes) : Except Problem (String × Bytes) :=
  match skipSpace text with
  | b :: rest => if b = Byte.quote then readString rest else unexpected "a string" text
  | [] => .error .truncated

/-- An integer of 32 bits. -/
def readInt32 (text : Bytes) : Except Problem (Int32 × Bytes) :=
  match skipSpace text with
  | b :: rest =>
    if b = Byte.minus ∨ Byte.isDigit b then do
      let (numeral, rest) ← readNumeral (b :: rest)
      match numeral.number? with
      | none => throw .malformed
      | some (.real x) => throw (.mismatch (.invalidType (.real x) "i32"))
      | some (.integer n) =>
        match int32? n with
        | some i => return (i, rest)
        | none => throw (.mismatch (.invalidValue n "i32"))
    else unexpected "i32" text
  | [] => .error .truncated

/-- The status with a given name. -/
def statusNamed (name : String) : Except Problem Status :=
  match Status.ofName? name with
  | some s => .ok s
  | none => .error (.mismatch (.unknownVariant name (Status.all.map (·.name))))

/-- The word null. -/
def expectNull (text : Bytes) : Except Problem Bytes :=
  match skipSpace text with
  | b :: rest =>
    if b = 0x6E then expectWord nullTail rest
    else (unexpected "unit" text : Except Problem (Unit × Bytes)).map Prod.snd
  | [] => .error .truncated

/-- The end of an object that has its only member. -/
def expectObjectEnd (text : Bytes) : Except Problem Bytes :=
  match skipSpace text with
  | b :: rest => if b = Byte.closeBrace then .ok rest else .error .malformed
  | [] => .error .truncated

/-- A status: its name, or an object with its name and null. -/
def readStatus (text : Bytes) : Except Problem (Status × Bytes) :=
  match skipSpace text with
  | b :: rest =>
    if b = Byte.quote then do
      let (name, rest) ← readString rest
      return (← statusNamed name, rest)
    else if b = Byte.openBrace then
      match skipSpace rest with
      | c :: rest =>
        if c = Byte.quote then do
          let (name, rest) ← readString rest
          let status ← statusNamed name
          let rest ← expectNull (← expectColon rest)
          return (status, ← expectObjectEnd rest)
        else .error .malformed
      | [] => .error .truncated
    else .error .malformed
  | [] => .error .truncated

/-- A timestamp, or null for none. -/
def readTimestamp (text : Bytes) : Except Problem (Option Instant × Bytes) :=
  match skipSpace text with
  | b :: rest =>
    if b = 0x6E then (expectWord nullTail rest).map fun rest => (none, rest)
    else if b = Byte.quote then do
      let (s, rest) ← readString rest
      match Instant.ofString? s with
      | some t => return (some t, rest)
      | none => throw (.mismatch .timestamp)
    else unexpected "an RFC 3339 formatted date and time string" text
  | [] => .error .truncated

/-! ## Records written as objects -/

/-- The members of a record that have been read so far. -/
structure Draft where
  userId : Option String := none
  goalId : Option String := none
  challengeId : Option String := none
  gameNamespace : Option String := none
  progress : Option Int32 := none
  status : Option Status := none
  completedAt : Option (Option Instant) := none
  claimedAt : Option (Option Instant) := none

/-- A member that has not been read before. -/
def readOnce {α : Type} (name : String) (before : Option α)
    (read : Bytes → Except Problem (α × Bytes)) (text : Bytes) (put : α → Draft) :
    Except Problem (Draft × Bytes) := do
  if before.isSome then throw (.mismatch (.duplicateField name))
  let (a, rest) ← read (← expectColon text)
  return (put a, rest)

/-- The draft after one more member. -/
def readMember (d : Draft) (name : String) (text : Bytes) : Except Problem (Draft × Bytes) :=
  match name with
  | "userId" => readOnce name d.userId readText text fun a => { d with userId := some a }
  | "goalId" => readOnce name d.goalId readText text fun a => { d with goalId := some a }
  | "challengeId" =>
    readOnce name d.challengeId readText text fun a => { d with challengeId := some a }
  | "namespace" =>
    readOnce name d.gameNamespace readText text fun a => { d with gameNamespace := some a }
  | "progress" => readOnce name d.progress readInt32 text fun a => { d with progress := some a }
  | "status" => readOnce name d.status readStatus text fun a => { d with status := some a }
  | "completedAt" =>
    readOnce name d.completedAt readTimestamp text fun a => { d with completedAt := some a }
  | "claimedAt" =>
    readOnce name d.claimedAt readTimestamp text fun a => { d with claimedAt := some a }
  | _ => do
    let rest ← skipValue (← expectColon text)
    return (d, rest)

/-- The record of a finished draft. -/
def ofDraft (d : Draft) : Except Problem ProgressRecord :=
  match d.goalId with
  | none => .error (.mismatch (.missingField "goalId"))
  | some goalId => .ok {
      userId := d.userId.getD ""
      goalId := goalId
      challengeId := d.challengeId.getD ""
      gameNamespace := d.gameNamespace.getD ""
      progress := d.progress.getD 0
      status := d.status.getD .notStarted
      completedAt := d.completedAt.getD none
      claimedAt := d.claimedAt.getD none }

/-! ## Records written as arrays -/

/-- A place inside an array of values: whether the array is still open, whether its first item is
due, and the text from there on. -/
structure Row where
  isOpen : Bool
  first : Bool
  rest : Bytes

/-- The next value of a row, unless the row has ended. -/
def Row.next? {α : Type} (row : Row) (read : Bytes → Except Problem (α × Bytes)) :
    Except Problem (Option α × Row) :=
  if row.isOpen then
    match nextItem row.first row.rest with
    | .error p => .error p
    | .ok (false, rest) => .ok (none, { row with isOpen := false, rest := rest })
    | .ok (true, rest) =>
      (read rest).map fun (a, rest) => (some a, { row with first := false, rest := rest })
  else .ok (none, row)

/-- A record after the opening bracket of its array. -/
def readRow (text : Bytes) : Except Problem (ProgressRecord × Bytes) := do
  let (userId, row) ← (Row.mk true true text).next? readText
  let (some goalId, row) ← row.next? readText
    | throw (.mismatch (.invalidLength 1 "struct Progress with 8 elements"))
  let (challengeId, row) ← row.next? readText
  let (gameNamespace, row) ← row.next? readText
  let (progress, row) ← row.next? readInt32
  let (status, row) ← row.next? readStatus
  let (completedAt, row) ← row.next? readTimestamp
  let (claimedAt, row) ← row.next? readTimestamp
  let rest ← if row.isOpen then expectEnd row.rest else pure row.rest
  let record : ProgressRecord := {
    userId := userId.getD ""
    goalId := goalId
    challengeId := challengeId.getD ""
    gameNamespace := gameNamespace.getD ""
    progress := progress.getD 0
    status := status.getD .notStarted
    completedAt := completedAt.getD none
    claimedAt := claimedAt.getD none }
  return (record, rest)

/-! ## Records and files -/

/-- The record at the start of a text. -/
def read (text : Bytes) : Except Problem (ProgressRecord × Bytes) :=
  match skipSpace text with
  | b :: rest =>
    if b = Byte.openBracket then readRow rest
    else if b = Byte.openBrace then do
      let (draft, rest) ← foldMembers readMember true {} rest
      return (← ofDraft draft, rest)
    else unexpected "struct Progress" text
  | [] => .error .truncated

/-- The records of a progress file. -/
def readFile (text : Bytes) : Except Problem (List ProgressRecord) :=
  match skipSpace text with
  | b :: rest =>
    if b = Byte.openBracket then do
      let item := fun (records : List ProgressRecord) text =>
        (read text).map fun (r, rest) => (r :: records, rest)
      let (records, rest) ← foldItems item true [] rest
      expectNothing rest
      return records.reverse
    else (unexpected "a sequence" text).map Prod.fst
  | [] => .error .truncated

end GoalProgress.ProgressRecord
