import GoalProgress.Json.Numeral

/-!
# Reading JSON texts piece by piece

The pieces that every JSON text consists of: words, string literals, and the commas and colons of
arrays and objects. Each reader takes the text from where it stands and gives the text after what it
read, or the first problem. A problem is a truncation exactly if the text ends where a byte is
needed.

## Main definitions

* `Json.readString`: a string literal after its opening quote.
* `Json.foldItems`, `Json.foldMembers`: the items of an array and the members of an object, handed
  to a step function one by one.
* `Json.readFound`: the value at the start of a text, as far as a message tells.
-/
namespace GoalProgress.Json

/-- The four bytes that may stand between tokens. -/
def isSpace (b : UInt8) : Bool :=
  b == Byte.space || b == Byte.lineFeed || b == Byte.tab || b == Byte.carriageReturn

/-- The text from its next token on. -/
def skipSpace (text : Bytes) : Bytes := text.dropWhile isSpace

/-- The text after a given word. -/
def expectWord : (word text : Bytes) → Except Problem Bytes
  | [], text => .ok text
  | _ :: _, [] => .error .truncated
  | w :: ws, b :: rest => if b = w then expectWord ws rest else .error .malformed

/-- What follows the first letter of `null`. -/
def nullTail : Bytes := Bytes.ofString "ull"

/-- What follows the first letter of `true`. -/
def trueTail : Bytes := Bytes.ofString "rue"

/-- What follows the first letter of `false`. -/
def falseTail : Bytes := Bytes.ofString "alse"

/-! ## String literals -/

/-- Where a reader stands inside a string literal. -/
inductive StringState where
  /-- Between characters. -/
  | plain
  /-- After a backslash. -/
  | escape
  /-- Among the four digits of `\u`, after a first half of a pair or not. -/
  | digits (high : Option Nat) (ds : Bytes)
  /-- After the first half of a pair, before the backslash of the second half. -/
  | backslash (high : Nat)
  /-- After the first half of a pair, before the `u` of the second half. -/
  | marker (high : Nat)
deriving DecidableEq, Repr

/-- The byte that an escape letter stands for. -/
def unescape? (letter : UInt8) : Option UInt8 :=
  if letter = Byte.quote ∨ letter = Byte.backslash ∨ letter = 0x2F then some letter
  else if letter = 0x62 then some Byte.backspace
  else if letter = 0x66 then some Byte.formFeed
  else if letter = 0x6E then some Byte.lineFeed
  else if letter = 0x72 then some Byte.carriageReturn
  else if letter = 0x74 then some Byte.tab
  else none

/-- The number that four hexadecimal digits stand for. -/
def hexNumber? (ds : Bytes) : Option Nat :=
  ds.foldlM (fun n d => (Byte.hexValue? d).map (16 * n + ·)) 0

/-- The UTF-8 encoding of a code point. -/
def encodePoint (n : Nat) : Bytes := Bytes.ofString (Char.ofNat n).toString

/-- The state and the bytes that result from a complete `\u` escape. The halves of a pair have to
stand together, unless `lenient`, when no half is looked at. -/
def afterUnicode (lenient : Bool) (high : Option Nat) (ds : Bytes) :
    Except Problem (StringState × Bytes) :=
  match hexNumber? ds, high with
  | none, _ => .error .malformed
  | some n, none =>
    if lenient then .ok (.plain, [])
    else if 0xD800 ≤ n ∧ n < 0xDC00 then .ok (.backslash n, [])
    else if 0xDC00 ≤ n ∧ n < 0xE000 then .error .malformed
    else .ok (.plain, encodePoint n)
  | some n, some high =>
    if 0xDC00 ≤ n ∧ n < 0xE000 then
      .ok (.plain, encodePoint (0x10000 + (high - 0xD800) * 0x400 + (n - 0xDC00)))
    else .error .malformed

/-- The state after one more byte of a literal, which does not end it, and the bytes that become
known. -/
def StringState.next (lenient : Bool) (s : StringState) (b : UInt8) :
    Except Problem (StringState × Bytes) :=
  match s with
  | .plain =>
    if b = Byte.backslash then .ok (.escape, [])
    else if b < 0x20 then .error .malformed
    else .ok (.plain, [b])
  | .escape =>
    if b = 0x75 then .ok (.digits none [], [])
    else match unescape? b with
      | some c => .ok (.plain, [c])
      | none => .error .malformed
  | .digits high ds =>
    if ds.length < 3 then .ok (.digits high (ds ++ [b]), [])
    else afterUnicode lenient high (ds ++ [b])
  | .backslash high => if b = Byte.backslash then .ok (.marker high, []) else .error .malformed
  | .marker high => if b = 0x75 then .ok (.digits (some high) [], []) else .error .malformed

/-- The bytes of a literal, last byte first on top of `acc`, and the text after its closing
quote. -/
def readStringFrom (lenient : Bool) (s : StringState) (acc : Bytes) :
    Bytes → Except Problem (Bytes × Bytes)
  | [] => .error .truncated
  | b :: rest =>
    if s = .plain ∧ b = Byte.quote then .ok (acc, rest)
    else match s.next lenient b with
      | .error p => .error p
      | .ok (s, bs) => readStringFrom lenient s (bs.reverse ++ acc) rest

/-- The text of a literal whose opening quote has been read. -/
def readString (text : Bytes) : Except Problem (String × Bytes) := do
  let (acc, rest) ← readStringFrom false .plain [] text
  match Bytes.toString? acc.reverse with
  | some s => return (s, rest)
  | none => throw .malformed

/-- The text after a literal whose opening quote has been read, with a look at its escapes only. -/
def skipString (text : Bytes) : Except Problem Bytes :=
  (readStringFrom true .plain [] text).map Prod.snd

/-! ## Arrays and objects -/

/-- The text from the next item on, or none after the closing bracket. Before any item but the first
a comma is due. -/
def nextItem (first : Bool) (text : Bytes) : Except Problem (Bool × Bytes) :=
  match skipSpace text with
  | [] => .error .truncated
  | b :: rest =>
    if b = Byte.closeBracket then .ok (false, rest)
    else if first then .ok (true, b :: rest)
    else if b = Byte.comma then
      match skipSpace rest with
      | [] => .error .truncated
      | c :: rest => if c = Byte.closeBracket then .error .malformed else .ok (true, c :: rest)
    else .error .malformed

/-- The text after a colon. -/
def expectColon (text : Bytes) : Except Problem Bytes :=
  match skipSpace text with
  | [] => .error .truncated
  | b :: rest => if b = Byte.colon then .ok rest else .error .malformed

/-- The name of the next member, or none after the closing brace. Before any member but the first a
comma is due. -/
def nextKey (first : Bool) (text : Bytes) : Except Problem (Option String × Bytes) :=
  match skipSpace text with
  | [] => .error .truncated
  | b :: rest =>
    if b = Byte.closeBrace then .ok (none, rest)
    else if first then
      if b = Byte.quote then (readString rest).map fun (key, rest) => (some key, rest)
      else .error .malformed
    else if b = Byte.comma then
      match skipSpace rest with
      | [] => .error .truncated
      | c :: rest =>
        if c = Byte.quote then (readString rest).map fun (key, rest) => (some key, rest)
        else .error .malformed
    else .error .malformed

variable {σ : Type}

/-- The items of an array up to its closing bracket, each read by `step`, which is given the text
from the item on and has to use some of it. -/
def foldItems (step : σ → Bytes → Except Problem (σ × Bytes)) (first : Bool) (s : σ)
    (text : Bytes) : Except Problem (σ × Bytes) :=
  match nextItem first text with
  | .error p => .error p
  | .ok (false, rest) => .ok (s, rest)
  | .ok (true, item) =>
    match step s item with
    | .error p => .error p
    | .ok (s, rest) =>
      if _h : rest.length < text.length then foldItems step false s rest else .error .malformed
termination_by text.length

/-- The members of an object up to its closing brace, each read by `step`, which is given the name
and the text after it, from before the colon on. -/
def foldMembers (step : σ → String → Bytes → Except Problem (σ × Bytes)) (first : Bool) (s : σ)
    (text : Bytes) : Except Problem (σ × Bytes) :=
  match nextKey first text with
  | .error p => .error p
  | .ok (none, rest) => .ok (s, rest)
  | .ok (some key, value) =>
    match step s key value with
    | .error p => .error p
    | .ok (s, rest) =>
      if _h : rest.length < text.length then foldMembers step false s rest else .error .malformed
termination_by text.length

/-- The end of an array of which no further item is wanted. -/
def expectEnd (text : Bytes) : Except Problem Bytes :=
  match skipSpace text with
  | [] => .error .truncated
  | b :: rest => if b = Byte.closeBracket then .ok rest else .error .malformed

/-- The end of the whole text. -/
def expectNothing (text : Bytes) : Except Problem Unit :=
  if (skipSpace text).isEmpty then .ok () else .error .malformed

/-! ## Values as messages tell of them -/

/-- The value at the start of a text. Of arrays and objects only the opening is looked at. -/
def readFound (text : Bytes) : Except Problem Found :=
  match skipSpace text with
  | [] => .error .truncated
  | b :: rest =>
    if b = 0x6E then (expectWord nullTail rest).map fun _ => .null
    else if b = 0x74 then (expectWord trueTail rest).map fun _ => .boolean true
    else if b = 0x66 then (expectWord falseTail rest).map fun _ => .boolean false
    else if b = Byte.minus ∨ Byte.isDigit b then do
      let (n, _) ← readNumeral (b :: rest)
      match n.number? with
      | some number => return number.found
      | none => throw .malformed
    else if b = Byte.quote then (readString rest).map fun (s, _) => .text s
    else if b = Byte.openBracket then .ok .sequence
    else if b = Byte.openBrace then .ok .map
    else .error .malformed

/-- The problem of a value that is not of the expected kind. -/
def unexpected {α : Type} (expected : String) (text : Bytes) : Except Problem (α × Bytes) := do
  let found ← readFound text
  throw (.mismatch (.invalidType found expected))

end GoalProgress.Json
