import GoalProgress.Error

/-!
# Documents fit for caching

Progress can be spliced into a document only if it has a closing brace, and a client can tell the
spliced members from others only if the document has none of their names. A reserved name counts as
a member name if its opening quote is not escaped and a colon follows, after blanks or at once.

## Main definitions

* `Document.fault?`: why a document may not be cached.
* `Document.check`: the same as an error that names the document.
-/
namespace GoalProgress.Document

/-- The reserved name, with its quotes, at the start of the bytes. -/
def reservedAt? (bs : Bytes) : Option ReservedKey :=
  ReservedKey.all.find? (·.literal.isPrefixOf bs)

/-- Whether a name is used as the name of a member, judged by the bytes around it. -/
def isMemberName (before : Option UInt8) (after : Bytes) : Bool :=
  before != some Byte.backslash && after.firstInk? == some Byte.colon

/-- The first reserved name that is used as the name of a member. The search goes from left to
right, knows the byte before, and does not look into the `skip` bytes that belong to a name already
found. -/
def reservedFrom? (skip : Nat) (before : Option UInt8) : Bytes → Option ReservedKey
  | [] => none
  | b :: rest =>
    match skip with
    | skip + 1 => reservedFrom? skip (some b) rest
    | 0 =>
      match reservedAt? (b :: rest) with
      | none => reservedFrom? 0 (some b) rest
      | some key =>
        if isMemberName before ((b :: rest).drop key.literal.length) then some key
        else reservedFrom? (key.literal.length - 1) (some b) rest

/-- Why a document may not be cached. -/
def fault? (doc : Bytes) : Option DocumentFault :=
  if (doc.lastByte? Byte.closeBrace).isNone then some .missingBrace
  else (reservedFrom? 0 none doc).map .reservedKey

/-- A document is fit for caching, or an error names it. -/
def check (id : String) (doc : Bytes) : Except Error Unit :=
  match fault? doc with
  | none => .ok ()
  | some fault => .error (.invalidDocument id fault)

end GoalProgress.Document
