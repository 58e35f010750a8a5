import GoalProgress.Bytes

/-!
# Escaping of string literals

A byte that may not stand in a JSON string literal is written as an escape: a backslash and a
letter, or `\u00` and two hexadecimal digits. All such bytes are ASCII, so a text can be escaped
byte by byte in its UTF-8 encoding.

## Main definitions

* `Json.EscapeStyle`: which bytes have an escape letter of their own.
* `Json.escape`: the escaped form of a text, byte by byte.
-/
namespace GoalProgress.Json

/-- The letter that follows the backslash, for the bytes that have one. -/
structure EscapeStyle where
  letter? : UInt8 → Option UInt8

/-- Letters for quote, backslash, line feed, carriage return and tab. -/
def EscapeStyle.short : EscapeStyle where
  letter? b :=
    if b = Byte.quote then some Byte.quote
    else if b = Byte.backslash then some Byte.backslash
    else if b = Byte.lineFeed then some 0x6E
    else if b = Byte.carriageReturn then some 0x72
    else if b = Byte.tab then some 0x74
    else none

/-- The letters of `EscapeStyle.short`, and letters for backspace and form feed. -/
def EscapeStyle.full : EscapeStyle where
  letter? b :=
    if b = Byte.backspace then some 0x62
    else if b = Byte.formFeed then some 0x66
    else EscapeStyle.short.letter? b

/-- The bytes that may not stand in a string literal: quote, backslash and control characters. -/
def needsEscape (b : UInt8) : Bool := b == Byte.quote || b == Byte.backslash || b < 0x20

variable (style : EscapeStyle)

/-- One byte inside a string literal. -/
def escapeByte (b : UInt8) : Bytes :=
  match style.letter? b with
  | some letter => [Byte.backslash, letter]
  | none =>
    if b < 0x20 then
      [Byte.backslash, 0x75, Byte.zero, Byte.zero, Byte.hexDigit (b / 16), Byte.hexDigit (b % 16)]
    else [b]

/-- The form of a text between the quotes of a string literal. -/
def escape (s : Bytes) : Bytes := s.flatMap (escapeByte style)

/-- Whether a text stands in a string literal as it is. -/
def isVerbatim (s : Bytes) : Bool := !s.any needsEscape

@[simp] theorem escape_nil : escape style [] = [] := rfl

@[simp] theorem escape_cons (b : UInt8) (s : Bytes) :
    escape style (b :: s) = escapeByte style b ++ escape style s := by simp [escape]

@[simp] theorem escape_append (s t : Bytes) :
    escape style (s ++ t) = escape style s ++ escape style t := by simp [escape]

/-- A string literal: the escaped text between quotes. -/
def quoted (s : String) : Bytes :=
  Byte.quote :: (escape style (Bytes.ofString s) ++ [Byte.quote])

end GoalProgress.Json
