import GoalProgress.Toml.Moment
import GoalProgress.Toml.Number
import GoalProgress.Toml.Text
import GoalProgress.Toml.Tree

/-!
# Reading TOML documents

A document is read line by line: a line is empty, gives a value to a name, or is the header of the
table that the lines after it belong to. A line ends with a line feed, with or without a carriage
return before it.

## Main definitions

* `Toml.readKey?`: a name with dots.
* `Toml.readValue?`: a value, with arrays and inline tables nested up to a limit.
* `Toml.parse?`: the table that a document holds.
-/
namespace GoalProgress.Toml

/-- The greatest number of arrays and inline tables around a value, and of names joined by dots. -/
def maxDepth : Nat := 79

/-- What is left after the blanks in front. -/
def skipBlanks (cs : List Char) : List Char := cs.dropWhile isBlank

/-! ## Names -/

/-- Whether a character may stand in a name without quotes. -/
def isBare (c : Char) : Bool := c.isAlphanum || c == '-' || c == '_'

/-- A single name, bare or between quotes or apostrophes. -/
def readName? : List Char → Option (String × List Char)
  | [] => none
  | c :: rest =>
    if c == Delimiter.quote.mark then readLine? .quote rest
    else if c == Delimiter.apostrophe.mark then readLine? .apostrophe rest
    else
      match (c :: rest).takeWhile isBare with
      | [] => none
      | name => some (String.ofList name, (c :: rest).drop name.length)

/-- Names joined by dots, with blanks around each of them. -/
def readNames? (cs : List Char) : Option (List String × List Char) := do
  let (name, rest) ← readName? (skipBlanks cs)
  match skipBlanks rest with
  | '.' :: rest =>
    if _h : rest.length < cs.length then do
      let (names, rest) ← readNames? rest
      return (name :: names, rest)
    else none
  | rest => return ([name], rest)
termination_by cs.length

/-- A name with dots: the tables that it leads through, and the name in the last of them. -/
def readKey? (cs : List Char) : Option ((List String × String) × List Char) := do
  let (names, rest) ← readNames? cs
  let last ← names.getLast?
  if maxDepth < names.length then none
  return ((names.dropLast, last), rest)

/-! ## Values -/

/-- What is left after a given word. -/
def readWord? (word : String) (v : Value) (cs : List Char) : Option (Value × List Char) :=
  if word.toList.isPrefixOf cs then some (v, cs.drop word.length) else none

/-- What is left after the blanks, line ends and comments between the items of an array. -/
def skipLines (inComment : Bool) : List Char → List Char
  | [] => []
  | c :: rest =>
    if c == '\n' then skipLines false rest
    else if inComment then if isText c then skipLines true rest else c :: rest
    else if isBlank c then skipLines false rest
    else if c == '#' then skipLines true rest
    else c :: rest

/-- The items of an array up to its closing bracket, last item first on top of `items`. A comma may
follow the last item. -/
def readItems? (item : List Char → Option (Value × List Char)) (items : List Value)
    (cs : List Char) : Option (List Value × List Char) :=
  match skipLines false cs with
  | ']' :: rest => some (items, rest)
  | start => do
    let (v, rest) ← item start
    match skipLines false rest with
    | ']' :: rest => return (v :: items, rest)
    | ',' :: rest =>
      if _h : rest.length < cs.length then readItems? item (v :: items) rest else none
    | _ => none
termination_by cs.length

/-- A name, an equals sign and the value of the name. -/
def readMember? (value : List Char → Option (Value × List Char)) (cs : List Char) :
    Option ((List String × String) × Value × List Char) := do
  let (key, rest) ← readKey? cs
  let '=' :: rest := rest | none
  let (v, rest) ← value (skipBlanks rest)
  return (key, v, rest)

/-- The members of an inline table up to its closing brace, on top of `members`. No comma follows
the last member. -/
def readMembers? (value : List Char → Option (Value × List Char)) (members : List (String × Node))
    (cs : List Char) : Option (List (String × Node) × List Char) := do
  let ((path, name), v, rest) ← readMember? value cs
  let members ← Node.insert? path name v members
  match skipBlanks rest with
  | '}' :: rest => return (members, rest)
  | ',' :: rest => if _h : rest.length < cs.length then readMembers? value members rest else none
  | _ => none
termination_by cs.length

/-- A value that is no array and no table. -/
def readScalar? (cs : List Char) : Option (Value × List Char) :=
  match cs with
  | [] => none
  | c :: _ =>
    if c == Delimiter.quote.mark then (readText? .quote cs).map fun (s, rest) => (.text s, rest)
    else if c == Delimiter.apostrophe.mark then
      (readText? .apostrophe cs).map fun (s, rest) => (.text s, rest)
    else if c == 't' then readWord? "true" (.boolean true) cs
    else if c == 'f' then readWord? "false" (.boolean false) cs
    else if Moment.startsWith 4 '-' cs then
      (Moment.readDateTime? cs).map fun rest => (.moment, rest)
    else if Moment.startsWith 2 ':' cs then
      (Moment.readTime? cs).map fun rest => (.moment, rest)
    else Number.read? cs

/-- A value, with at most `depth` arrays and inline tables inside one another. -/
def readValue? (depth : Nat) (cs : List Char) : Option (Value × List Char) :=
  match depth, cs with
  | 0, '[' :: _ | 0, '\x7b' :: _ => none
  | depth + 1, '[' :: rest =>
    (readItems? (readValue? depth) [] rest).map fun (items, rest) => (.array items.reverse, rest)
  | depth + 1, '\x7b' :: rest =>
    match skipBlanks rest with
    | '}' :: rest => some (.table [], rest)
    | rest =>
      (readMembers? (readValue? depth) [] rest).map fun (members, rest) =>
        (.table (Node.closeAll members), rest)
  | _, cs => readScalar? cs

/-! ## Lines -/

/-- What is left after the end of a line, with blanks and a comment before it. -/
def endLine? (cs : List Char) : Option (List Char) :=
  let rest := skipBlanks cs
  let rest := if rest.head? == some '#' then rest.dropWhile isText else rest
  match rest with
  | [] => some []
  | '\n' :: rest => some rest
  | _ => none

/-- A document as far as it has been read: what it holds, and the table that the next line belongs
to. -/
structure Document where
  members : List (String × Node)
  current : List String

namespace Document

/-- Nothing read so far. -/
def empty : Document := ⟨[], []⟩

/-- The document after the header of a table. -/
def openTable? (d : Document) (path : List String) (name : String) : Option Document := do
  let members ← Node.within? (Node.openTable? name) path d.members
  return ⟨members, path ++ [name]⟩

/-- The document after the header of an item of an array of tables. -/
def openItem? (d : Document) (path : List String) (name : String) : Option Document := do
  let members ← Node.within? (Node.openItem? name) path d.members
  return ⟨members, path ++ [name]⟩

/-- The document after a line that gives a value to a name. -/
def insert? (d : Document) (path : List String) (name : String) (v : Value) : Option Document := do
  let members ← Node.within? (Node.insert? path name v) d.current d.members
  return { d with members := members }

/-- The document after the line at the start of a text, and the lines after it. -/
def readLine? (d : Document) (cs : List Char) : Option (Document × List Char) :=
  match skipBlanks cs with
  | [] => some (d, [])
  | '\n' :: rest => some (d, rest)
  | '#' :: rest => (endLine? ('#' :: rest)).map fun rest => (d, rest)
  | '[' :: '[' :: rest => do
    let ((path, name), rest) ← readKey? rest
    let ']' :: ']' :: rest := rest | none
    return (← d.openItem? path name, ← endLine? rest)
  | '[' :: rest => do
    let ((path, name), rest) ← readKey? rest
    let ']' :: rest := rest | none
    return (← d.openTable? path name, ← endLine? rest)
  | rest => do
    let ((path, name), v, rest) ← readMember? (readValue? maxDepth) rest
    return (← d.insert? path name v, ← endLine? rest)

/-- The document after all lines of a text. -/
def readLines? (d : Document) (cs : List Char) : Option Document :=
  if cs.isEmpty then some d
  else do
    let (d, left) ← d.readLine? cs
    if _h : left.length < cs.length then readLines? d left else none
termination_by cs.length

end Document

/-- The characters of a text with every line end as a line feed. -/
def unifyLineEnds : List Char → List Char
  | '\r' :: '\n' :: rest => '\n' :: unifyLineEnds rest
  | c :: rest => c :: unifyLineEnds rest
  | [] => []

/-- The characters of a text without the mark of the byte order. -/
def dropByteOrderMark : List Char → List Char
  | '\ufeff' :: rest => rest
  | cs => cs

/-- The table that a text holds, unless it is no TOML. -/
def parse? (s : String) : Option Table := do
  let d ← Document.empty.readLines? (unifyLineEnds (dropByteOrderMark s.toList))
  return Node.closeAll d.members

end GoalProgress.Toml
