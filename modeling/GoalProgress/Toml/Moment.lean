import GoalProgress.Date
import GoalProgress.Text.Digits

/-!
# TOML dates and times

A date, a time of day, or both with or without an offset from UTC. Such a value is recognised by its
first characters: four digits and a minus sign, or two digits and a colon.

## Main definitions

* `Moment.readDateTime?`, `Moment.readTime?`: a date with or without a time, and a time of day.
* `Moment.isMoment`: whether a text is one of them.
-/
namespace GoalProgress.Toml.Moment

/-- A number of exactly `width` digits between two bounds. -/
def readField? (width low high : Nat) (cs : List Char) : Option (Nat × List Char) :=
  let ds := cs.take width
  let n := Text.number 10 ds
  if ds.length == width && ds.all Char.isDigit && low ≤ n && n ≤ high then some (n, cs.drop width)
  else none

/-- The characters after the character `c`. -/
def expect? (c : Char) : List Char → Option (List Char)
  | d :: rest => if c = d then some rest else none
  | [] => none

/-- Whether the characters start with digits and the character `c`. -/
def startsWith (width : Nat) (c : Char) (cs : List Char) : Bool :=
  (cs.take width).length == width && (cs.take width).all Char.isDigit && cs[width]? == some c

/-- The characters after an existing day of the year 0 to 9999. -/
def readDate? (cs : List Char) : Option (List Char) := do
  let (year, cs) ← readField? 4 0 9999 cs
  let cs ← expect? '-' cs
  let (month, cs) ← readField? 2 1 12 cs
  let cs ← expect? '-' cs
  let (_, cs) ← readField? 2 1 (DateFields.daysInMonth year month) cs
  return cs

/-- The characters after a fraction of a second, if there is one. -/
def skipFraction : List Char → List Char
  | '.' :: c :: rest => if c.isDigit then rest.dropWhile Char.isDigit else '.' :: c :: rest
  | cs => cs

/-- The characters after a time of day with an hour up to `lastHour`. -/
def readTimeUpTo? (lastHour : Nat) (cs : List Char) : Option (List Char) := do
  let (_, cs) ← readField? 2 0 lastHour cs
  let cs ← expect? ':' cs
  let (_, cs) ← readField? 2 0 59 cs
  let cs ← expect? ':' cs
  let (_, cs) ← readField? 2 0 60 cs
  return skipFraction cs

/-- The characters after a time of day. -/
def readTime? (cs : List Char) : Option (List Char) := readTimeUpTo? 23 cs

/-- The characters after an offset from UTC, if there is one. -/
def readOffset? : List Char → Option (List Char)
  | [] => some []
  | c :: rest =>
    if c == 'Z' || c == 'z' then some rest
    else if c == '+' || c == '-' then do
      let (_, cs) ← readField? 2 0 23 rest
      let cs ← expect? ':' cs
      let (_, cs) ← readField? 2 0 59 cs
      return cs
    else some (c :: rest)

/-- The characters after a date, and after the time that follows a `T` or a blank. -/
def readDateTime? (cs : List Char) : Option (List Char) := do
  match ← readDate? cs with
  | c :: rest =>
    if (c == 'T' || c == 't' || c == ' ') && startsWith 2 ':' rest then
      readOffset? (← readTime? rest)
    else return c :: rest
  | [] => return []

/-! ## Dates as texts -/

/-- The characters after an offset from UTC of at most a day, if there is one. -/
def readDayOffset? : List Char → Option (List Char)
  | [] => some []
  | c :: rest =>
    if c == 'Z' || c == 'z' then some rest
    else if c == '+' || c == '-' then do
      let (hours, cs) ← readField? 2 0 99 rest
      let cs ← expect? ':' cs
      let (minutes, cs) ← readField? 2 0 99 cs
      if hours * 60 + minutes ≤ 24 * 60 then some cs else none
    else none

/-- The characters after a date, a time of day or both in a text. In a text the hour may be 24, and
the offset only has to stay within a day. -/
def readInText? (cs : List Char) : Option (List Char) :=
  if cs[2]? == some ':' then readTimeUpTo? 24 cs
  else do
    match ← readDate? cs with
    | c :: rest =>
      if c == 'T' || c == 't' || c == ' ' then readDayOffset? (← readTimeUpTo? 24 rest)
      else none
    | [] => return []

/-- Whether a text is a date, a time of day or both, and nothing else. -/
def isMoment (s : String) : Bool := readInText? s.toList == some []

end GoalProgress.Toml.Moment
