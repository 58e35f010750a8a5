import GoalProgress.Scan.Span

/-!
# Objects on request

A scanner gives the top-level objects of some bytes one at a time. Each request reads on to the end
of the next object, and between two requests the scanner keeps what it remembers of the bytes that
it has read. The open braces are in a counter, and to take a counter below zero is a fault.

## Main definitions

* `Scan.Scanner.read`: the scanner and one more byte.
* `Scan.Scanner.next`: one request.
* `Scan.Scanner.Yields`: requests one after the other.
-/
namespace GoalProgress.Scan

/-- What can go wrong with a counter. -/
inductive CounterFault where
  | underflow
deriving DecidableEq, Repr

/-- One less than a number, unless the number is zero. -/
def oneLess : Nat → Except CounterFault Nat
  | 0 => .error .underflow
  | n + 1 => .ok n

/-- Bytes, the position up to which they have been read, and what is remembered of the bytes before
it. -/
structure Scanner where
  bytes : Bytes
  position : Nat := 0
  literal : Literal := .outside
  /-- The number of open braces. -/
  depth : Nat := 0
  /-- Where the outermost of them stands. -/
  start? : Option Nat := none
deriving DecidableEq, Repr

namespace Scanner

/-- A scanner at position `i` with nothing to remember. -/
def startingAt (bs : Bytes) (i : Nat) : Scanner := { bytes := bs, position := i }

/-- A scanner that has read nothing. -/
def ofBytes (bs : Bytes) : Scanner := startingAt bs 0

/-- One more byte, and the object that it completes. -/
def read (s : Scanner) (b : UInt8) : Except CounterFault (Option Span × Scanner) :=
  let moved := { s with position := s.position + 1, literal := s.literal.next b }
  if s.literal.isStructural b && b == Byte.openBrace then
    return (none, { moved with
      depth := s.depth + 1
      start? := if s.depth = 0 then some s.position else s.start? })
  else if s.literal.isStructural b && b == Byte.closeBrace then
    -- A closing brace too many: there is nothing to take down.
    if s.depth = 0 then return (none, moved)
    else do
      match ← oneLess s.depth, s.start? with
      | 0, some start =>
        return (some ⟨start, s.position + 1⟩, { moved with depth := 0, start? := none })
      | depth, _ => return (none, { moved with depth })
  else return (none, moved)

/-- The first object that ends in the bytes to come, and the scanner behind it; without such an
object, the scanner behind all of them. -/
def nextIn (s : Scanner) : Bytes → Except CounterFault (Option Span × Scanner)
  | [] => return (none, s)
  | b :: rest => do
    match ← s.read b with
    | (some span, s') => return (some span, s')
    | (none, s') => s'.nextIn rest

/-- The next object, if there is one, and the scanner behind it. -/
def next (s : Scanner) : Except CounterFault (Option Span × Scanner) :=
  s.nextIn (s.bytes.drop s.position)

/-- The scanner after a run of bytes, whatever objects end in it. -/
def after (s : Scanner) : Bytes → Except CounterFault Scanner
  | [] => return s
  | b :: rest => do
    let (_, s') ← s.read b
    s'.after rest

/-- Requests one after the other find objects, and lead from one scanner to another. -/
inductive Yields : Scanner → List Span → Scanner → Prop
  | nil (s : Scanner) : Yields s [] s
  | cons {s s' t : Scanner} {span : Span} {spans : List Span} (h : s.next = .ok (some span, s'))
      (hs : Yields s' spans t) : Yields s (span :: spans) t

end Scanner

end GoalProgress.Scan
