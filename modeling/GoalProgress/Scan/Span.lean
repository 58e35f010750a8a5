import GoalProgress.Scan.Literal

/-!
# The objects of an array

The interior of an array of objects is cut into its top-level objects. Everything between the
objects is passed over, a closing brace too many is ignored, and an object that is never closed is
left out.

## Main definitions

* `Scan.Span`: a range of positions.
* `Scan.objectSpans`: the ranges of the top-level objects, in order.
-/
namespace GoalProgress.Scan

/-- The positions from `start` up to, but not including, `stop`. -/
structure Span where
  start : Nat
  stop : Nat
deriving DecidableEq, Repr

namespace Span

/-- The bytes in a range of positions. -/
def slice (s : Span) (bs : Bytes) : Bytes := (bs.take s.stop).drop s.start

/-- The same range, `n` positions further on. -/
def shift (s : Span) (n : Nat) : Span := ⟨s.start + n, s.stop + n⟩

end Span

/-- What the object scanner remembers: the literal state, and the braces that are open with the
start of the outermost one. -/
structure ObjectState where
  literal : Literal
  depth : Nat
  start : Nat
deriving DecidableEq, Repr

namespace ObjectState

/-- Between objects, outside every literal. -/
def between : ObjectState := ⟨.outside, 0, 0⟩

/-- The scanner after the byte at position `i`, and the object which that byte completes. -/
def next (s : ObjectState) (i : Nat) (b : UInt8) : ObjectState × Option Span :=
  let moved := { s with literal := s.literal.next b }
  if s.literal.isStructural b && b == Byte.openBrace then
    ({ moved with depth := s.depth + 1, start := if s.depth = 0 then i else s.start }, none)
  else if s.literal.isStructural b && b == Byte.closeBrace then
    match s.depth with
    | 0 => (moved, none)
    | 1 => ({ moved with depth := 0 }, some ⟨s.start, i + 1⟩)
    | depth + 2 => ({ moved with depth := depth + 1 }, none)
  else (moved, none)

/-- The objects completed in the bytes from position `i` on. -/
def spansFrom (s : ObjectState) (i : Nat) : Bytes → List Span
  | [] => []
  | b :: rest =>
    match s.next i b with
    | (s', some span) => span :: spansFrom s' (i + 1) rest
    | (s', none) => spansFrom s' (i + 1) rest

end ObjectState

/-- The ranges of the top-level objects, in order. -/
def objectSpans (bs : Bytes) : List Span := ObjectState.between.spansFrom 0 bs

end GoalProgress.Scan
