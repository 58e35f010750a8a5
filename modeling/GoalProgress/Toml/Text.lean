import GoalProgress.Text.Digits

/-!
# TOML texts

Texts stand between quotes or apostrophes, on one line or, between three of them, on several. Only
quotes give a meaning to the backslash. Readers take the characters from where they stand and give
what is left after what they read.

## Main definitions

* `Toml.readLine?`: a text on one line.
* `Toml.readLines?`: a text on several lines.
-/
namespace GoalProgress.Toml

/-- The blanks inside a line. -/
def isBlank (c : Char) : Bool := c == ' ' || c == '\t'

/-- Whether a character may stand in a comment or a text: anything but controls, tabs excepted. -/
def isText (c : Char) : Bool := c == '\t' || (' ' ≤ c && c != '\x7f')

/-- Which character ends a text, and whether the backslash has a meaning in it. -/
structure Delimiter where
  mark : Char
  escapes : Bool

/-- Texts between quotes. -/
def Delimiter.quote : Delimiter := ⟨'"', true⟩

/-- Texts between apostrophes. -/
def Delimiter.apostrophe : Delimiter := ⟨'\'', false⟩

/-- The character that an escape letter stands for. -/
def unescape? (letter : Char) : Option Char :=
  match letter with
  | 'b' => some '\x08'
  | 't' => some '\t'
  | 'n' => some '\n'
  | 'f' => some '\x0c'
  | 'r' => some '\r'
  | '"' => some '"'
  | '\\' => some '\\'
  | _ => none

/-- Where a reader stands inside a text. -/
inductive TextState where
  /-- Between characters. -/
  | plain
  /-- After a backslash. -/
  | escape
  /-- Among hexadecimal digits, of which `missing` and one more are still to come. -/
  | digits (missing value : Nat)
  /-- In the blanks between a backslash and the end of its line. -/
  | lineEnd
  /-- In the blanks and empty lines after a backslash at the end of a line. -/
  | lineStart
deriving DecidableEq, Repr

/-- The state after the last hexadecimal digit of an escape, and the character it stands for. -/
def ofPoint? (n : Nat) : Option (TextState × List Char) :=
  if n.isValidChar then some (.plain, [Char.ofNat n]) else none

namespace TextState

/-- The state after a character with no backslash before it, and the characters that become
known. -/
def nextPlain? (d : Delimiter) (lines : Bool) (c : Char) : Option (TextState × List Char) :=
  if d.escapes && c == '\\' then some (.escape, [])
  else if isText c || (lines && c == '\n') then some (.plain, [c])
  else none

/-- The state after one more character of a text, which does not end it, and the characters that
become known. -/
def next? (d : Delimiter) (lines : Bool) (s : TextState) (c : Char) :
    Option (TextState × List Char) :=
  match s with
  | .plain => nextPlain? d lines c
  | .escape =>
    if c == 'u' then some (.digits 3 0, [])
    else if c == 'U' then some (.digits 7 0, [])
    else if lines && isBlank c then some (.lineEnd, [])
    else if lines && c == '\n' then some (.lineStart, [])
    else (unescape? c).map fun c => (.plain, [c])
  | .digits missing value =>
    if Text.isDigitIn 16 c then
      let value := 16 * value + Text.digitValue c
      match missing with
      | 0 => ofPoint? value
      | missing + 1 => some (.digits missing value, [])
    else none
  | .lineEnd =>
    if isBlank c then some (.lineEnd, [])
    else if c == '\n' then some (.lineStart, [])
    else none
  | .lineStart => if isBlank c || c == '\n' then some (.lineStart, []) else nextPlain? d lines c

/-- Whether a mark that comes next may belong to the end of the text. -/
def mayEnd : TextState → Bool
  | .plain | .lineStart => true
  | .escape | .digits .. | .lineEnd => false

end TextState

variable (d : Delimiter)

/-- The characters of a text on one line, last character first on top of `acc`, after its opening
mark. -/
def readLineFrom? (s : TextState) (acc : List Char) : List Char → Option (List Char × List Char)
  | [] => none
  | c :: rest =>
    if s.mayEnd && c == d.mark then some (acc, rest)
    else match s.next? d false c with
      | none => none
      | some (s, cs) => readLineFrom? s (cs.reverse ++ acc) rest

/-- A text on one line, after its opening mark. -/
def readLine? (cs : List Char) : Option (String × List Char) :=
  (readLineFrom? d .plain [] cs).map fun (acc, rest) => (String.ofList acc.reverse, rest)

/-- The characters of a text on several lines, last character first on top of `acc`. One or two
marks before the three that end the text belong to it. -/
def readLinesFrom? (s : TextState) (acc : List Char) : List Char → Option (List Char × List Char)
  | [] => none
  | c :: rest =>
    if s.mayEnd && c == d.mark && rest.take 2 == [d.mark, d.mark] then
      let extra := ((rest.drop 2).takeWhile (· == d.mark)).take 2
      some (extra ++ acc, rest.drop (2 + extra.length))
    else match s.next? d true c with
      | none => none
      | some (s, cs) => readLinesFrom? s (cs.reverse ++ acc) rest

/-- A text on several lines, after its three opening marks. The end of a line right after them is no
part of it. -/
def readLines? (cs : List Char) : Option (String × List Char) :=
  let start := match cs with
    | '\n' :: rest => rest
    | cs => cs
  (readLinesFrom? d .plain [] start).map fun (acc, rest) => (String.ofList acc.reverse, rest)

/-- A text, whose opening mark comes next. -/
def readText? : List Char → Option (String × List Char)
  | a :: b :: c :: rest =>
    if a != d.mark then none
    else if b == d.mark && c == d.mark then readLines? d rest
    else readLine? d (b :: c :: rest)
  | a :: rest => if a == d.mark then readLine? d rest else none
  | [] => none

end GoalProgress.Toml
