import GoalProgress.Json.Escape

/-!
# Escaping a text only where it has to be

Most texts need no escapes, so a text is first searched for a byte that has to be escaped. A text
without one is borrowed as it is. Otherwise a new text is made: what is before this byte is copied,
and what begins there is escaped character by character.

## Main definitions

* `Json.Escaped`: the text itself, or a new one.
* `Json.escaped?`: the escaped form of a text.
-/
namespace GoalProgress.Json

/-- An escaped text: the text itself, or a new one. -/
inductive Escaped where
  | borrowed (s : String)
  | owned (s : String)
deriving DecidableEq, Repr

/-- What stands between the quotes of a string literal. -/
def Escaped.text : Escaped → String
  | .borrowed s => s
  | .owned s => s

def Escaped.isBorrowed : Escaped → Bool
  | .borrowed _ => true
  | .owned _ => false

/-- One character in a new text. -/
def escapeCharacter (c : Char) : List Char :=
  if c = '\\' then ['\\', '\\']
  else if c = '"' then ['\\', '"']
  else if c = '\n' then ['\\', 'n']
  else if c = '\r' then ['\\', 'r']
  else if c = '\t' then ['\\', 't']
  else if c.toNat < 0x20 then
    let b := UInt8.ofNat c.toNat
    ['\\', 'u', '0', '0', Char.ofNat (Byte.hexDigit (b / 16)).toNat,
      Char.ofNat (Byte.hexDigit (b % 16)).toNat]
  else [c]

/-- A text in two parts, the second of which begins with the byte at a position. Inside a character
no part begins. -/
def splitAt? (s : String) (position : Nat) : Option (String × String) := do
  let front ← Bytes.toString? ((Bytes.ofString s).take position)
  let back ← Bytes.toString? ((Bytes.ofString s).drop position)
  return (front, back)

/-- The escaped form of a text. There is none if the first byte that has to be escaped is inside a
character. -/
def escaped? (s : String) : Option Escaped :=
  match (Bytes.ofString s).findIdx? needsEscape with
  | none => some (.borrowed s)
  | some first => (splitAt? s first).map fun (front, back) =>
    .owned (front ++ String.ofList (back.toList.flatMap escapeCharacter))

end GoalProgress.Json
