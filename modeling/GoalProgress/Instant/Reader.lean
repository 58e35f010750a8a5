import GoalProgress.Instant
import GoalProgress.Text.Digits

/-!
# Reading instants

Timestamps are read leniently: numbers may be shorter than their usual width, blanks may stand
before numbers and separators, a fraction may have any number of digits, and the offset may be
written in several ways. What is read is moved to UTC.

## Main definitions

* `Instant.ofString?`: the instant that a text denotes.
-/
namespace GoalProgress.Instant

/-- The characters that count as blank in a timestamp: all of Unicode's white space. -/
def isBlank (c : Char) : Bool :=
  ('\t' ≤ c && c ≤ '\r') || c == ' ' || c == '\u0085' || c == '\u00A0' || c == '\u1680' ||
    ('\u2000' ≤ c && c ≤ '\u200A') || c == '\u2028' || c == '\u2029' || c == '\u202F' ||
    c == '\u205F' || c == '\u3000'

/-- What is left after the blanks in front. -/
def skipBlanks (cs : List Char) : List Char := cs.dropWhile isBlank

/-- A number of one to `width` digits; further digits are left over. -/
def readNumber? (width : Nat) (cs : List Char) : Option (Nat × List Char) :=
  match (cs.takeWhile Char.isDigit).take width with
  | [] => none
  | ds => some (Text.number 10 ds, cs.drop ds.length)

/-- A number of one or two digits, with blanks in front. -/
def readField? (cs : List Char) : Option (Nat × List Char) := readNumber? 2 (skipBlanks cs)

/-- A year: up to four digits, or a sign and any number of digits. -/
def readYear? (cs : List Char) : Option (Int × List Char) :=
  match skipBlanks cs with
  | '-' :: rest => (readNumber? rest.length rest).map fun (n, rest) => (-(n : Int), rest)
  | '+' :: rest => (readNumber? rest.length rest).map fun (n, rest) => ((n : Int), rest)
  | rest => (readNumber? 4 rest).map fun (n, rest) => ((n : Int), rest)

/-- The character `c`, with blanks in front. -/
def readSeparator? (c : Char) (cs : List Char) : Option (List Char) :=
  match skipBlanks cs with
  | d :: rest => if c = d then some rest else none
  | [] => none

/-- A fraction of a second after a point, in nanoseconds; digits after the ninth are passed over. -/
def readFraction? : List Char → Option (Nat × List Char)
  | '.' :: rest =>
    match (rest.takeWhile Char.isDigit).take 9 with
    | [] => none
    | ds =>
      some (Text.number 10 (ds ++ List.replicate (9 - ds.length) '0'), rest.dropWhile Char.isDigit)
  | rest => some (0, rest)

/-- Two digits, the first of them at most `high`. -/
def readPair? (high : Char) : List Char → Option (Nat × List Char)
  | c :: d :: rest =>
    if c.isDigit && c ≤ high && d.isDigit then some (Text.number 10 [c, d], rest) else none
  | _ => none

/-- An offset from UTC in minutes: `UTC`, `Z`, or a sign, hours and minutes with colons and blanks
between them. It is shorter than a day. -/
def readOffset? : List Char → Option (Int × List Char)
  | c :: rest =>
    if c == 'Z' || c == 'z' then some (0, rest)
    else if ((c :: rest).take 3).map Char.toUpper == ['U', 'T', 'C'] then some (0, rest.drop 2)
    else if c == '+' || c == '-' || c == '\u2212' then do
      let (hours, rest) ← readPair? '9' rest
      let (minutes, rest) ← readPair? '5' (rest.dropWhile fun d => d == ':' || isBlank d)
      let offset := (hours * 60 + minutes : Nat)
      if offset < 1440 then some (if c == '+' then (offset : Int) else -(offset : Int), rest)
      else none
    else none
  | [] => none

/-- The instant at which clocks that are `offset` minutes ahead of UTC show the given date and
minute. -/
def ofLocal? (date : Date) (minute : Nat) (second : Fin 61) (nano : Fin 1000000000) (offset : Int) :
    Option Instant := do
  let shifted := (minute : Int) - offset
  let date ←
    if shifted < 0 then date.previous? else if 1440 ≤ shifted then date.next? else some date
  return ⟨date, Fin.ofNat 1440 (shifted % 1440).toNat, second, nano⟩

/-- The instant that the characters denote, with only blanks after it. -/
def ofChars? (cs : List Char) : Option Instant := do
  let (year, cs) ← readYear? cs
  let cs ← readSeparator? '-' cs
  let (month, cs) ← readField? cs
  let cs ← readSeparator? '-' cs
  let (day, cs) ← readField? cs
  let c :: cs := cs | none
  guard (c == 'T' || c == 't' || c == ' ')
  let (hour, cs) ← readField? cs
  let cs ← readSeparator? ':' cs
  let (minute, cs) ← readField? cs
  let cs ← readSeparator? ':' cs
  let (second, cs) ← readField? cs
  let (nano, cs) ← readFraction? cs
  let (offset, cs) ← readOffset? (skipBlanks cs)
  guard (cs.all isBlank)
  let date ← Date.ofFields? year month day
  guard (hour < 24 ∧ minute < 60)
  if h : second < 61 ∧ nano < 1000000000 then
    ofLocal? date (hour * 60 + minute) ⟨second, h.1⟩ ⟨nano, h.2⟩ offset
  else none

/-- The instant that a text denotes. -/
def ofString? (s : String) : Option Instant := ofChars? s.toList

end GoalProgress.Instant
