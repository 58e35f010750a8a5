/-!
# Byte strings

Documents are handled as lists of bytes and are searched without being parsed. This module names the
bytes that matter to the searches, converts between texts and their UTF-8 bytes, and finds bytes and
byte strings by position.

## Main definitions

* `Bytes`: a document, a file content or a piece of either.
* `Bytes.ofString`, `Bytes.toString?`: the UTF-8 encoding of a text, and its partial inverse.
* `Bytes.find?`, `Bytes.findByte?`, `Bytes.lastByte?`: first occurrences and the last one.
-/
namespace GoalProgress

/-- A document, a file content or a piece of either. -/
abbrev Bytes := List UInt8

/-! ## Single bytes -/

namespace Byte

abbrev backspace : UInt8 := 0x08
abbrev tab : UInt8 := 0x09
abbrev lineFeed : UInt8 := 0x0A
abbrev formFeed : UInt8 := 0x0C
abbrev carriageReturn : UInt8 := 0x0D
abbrev space : UInt8 := 0x20
abbrev quote : UInt8 := 0x22
abbrev plus : UInt8 := 0x2B
abbrev comma : UInt8 := 0x2C
abbrev minus : UInt8 := 0x2D
abbrev point : UInt8 := 0x2E
abbrev zero : UInt8 := 0x30
abbrev colon : UInt8 := 0x3A
abbrev openBracket : UInt8 := 0x5B
abbrev backslash : UInt8 := 0x5C
abbrev closeBracket : UInt8 := 0x5D
abbrev openBrace : UInt8 := 0x7B
abbrev closeBrace : UInt8 := 0x7D

/-- The five ASCII blanks: tab, line feed, form feed, carriage return and space. -/
def isBlank (b : UInt8) : Bool :=
  b == space || b == tab || b == lineFeed || b == formFeed || b == carriageReturn

/-- The ASCII digits. -/
def isDigit (b : UInt8) : Bool := zero ≤ b && b ≤ 0x39

/-- The digit that stands for a number below sixteen, with lower-case letters. -/
def hexDigit (n : UInt8) : UInt8 := if n < 10 then zero + n else 0x61 + (n - 10)

/-- The number that a hexadecimal digit of either case stands for. -/
def hexValue? (b : UInt8) : Option Nat :=
  if isDigit b then some (b - zero).toNat
  else if 0x61 ≤ b && b ≤ 0x66 then some (b - 0x61 + 10).toNat
  else if 0x41 ≤ b && b ≤ 0x46 then some (b - 0x41 + 10).toNat
  else none

end Byte

namespace Bytes

/-! ## Texts -/

/-- The UTF-8 encoding of a text. -/
def ofString (s : String) : Bytes := s.toByteArray.data.toList

/-- The text that the bytes encode, unless they are no UTF-8. -/
def toString? (bs : Bytes) : Option String := String.fromUTF8? ⟨bs.toArray⟩

@[simp] theorem toString?_ofString (s : String) : toString? (ofString s) = some s := by
  simp [toString?, ofString, String.fromUTF8?, s.isValidUTF8, String.fromUTF8]

/-! ## Searching -/

variable (bs : Bytes)

/-- The position of the first occurrence of `needle`. -/
def find? : (bs needle : Bytes) → Option Nat
  | [], needle => if needle.isEmpty then some 0 else none
  | b :: rest, needle =>
    if needle.isPrefixOf (b :: rest) then some 0 else (find? rest needle).map (· + 1)

/-- The position of the first `b` at or after `start`. -/
def findByte? (b : UInt8) (start : Nat) : Option Nat :=
  ((bs.drop start).findIdx? (· == b)).map (· + start)

/-- The position of the last `b`. -/
def lastByte? (b : UInt8) : Option Nat :=
  (bs.reverse.findIdx? (· == b)).map (bs.length - 1 - ·)

/-- The first byte that is no ASCII blank. -/
def firstInk? : Option UInt8 := List.find? (!Byte.isBlank ·) bs

/-- The last byte that is no ASCII blank. -/
def lastInk? : Option UInt8 := firstInk? bs.reverse

end Bytes

end GoalProgress
