import GoalProgress.Json.Reader

/-!
# Passing over values

The value of a member that nobody asks for is passed over. Only its outline is checked: brackets,
commas, colons and words have to be in place, but numbers may be of any size, texts of any encoding,
and values may be nested to any depth.
-/
namespace GoalProgress.Json

/-- What encloses the place where a reader stands. -/
inductive Container where
  | array
  | object
deriving DecidableEq, Repr

/-- What has to come next while a value is passed over. -/
inductive Due where
  | value
  /-- The name of a member. -/
  | key
  /-- A comma or the end of the container. -/
  | continuation
deriving DecidableEq, Repr

/-- The place where a reader stands while it passes over a value: what is due, and the containers
around, innermost first. -/
structure Place where
  due : Due
  around : List Container
deriving DecidableEq, Repr

namespace Place

/-- After a value, or after the end of a container. -/
def afterValue (around : List Container) : Place := ⟨.continuation, around⟩

/-- The place after a container has been opened, which may end at once. -/
def afterOpening (c : Container) (closing : UInt8) (around : List Container) (text : Bytes) :
    Except Problem (Place × Bytes) :=
  match skipSpace text with
  | [] => .error .truncated
  | b :: rest =>
    if b = closing then .ok (afterValue around, rest)
    else .ok (⟨if c = .array then .value else .key, c :: around⟩, b :: rest)

/-- The text after a value that is no container. A numeral may not end with the text before it is
complete. -/
def skipScalar (b : UInt8) (rest : Bytes) : Except Problem Bytes :=
  if b = 0x6E then expectWord nullTail rest
  else if b = 0x74 then expectWord trueTail rest
  else if b = 0x66 then expectWord falseTail rest
  else if b = Byte.quote then skipString rest
  else if b = Byte.minus ∨ Byte.isDigit b then
    match readNumeral (b :: rest) with
    | .ok (_, rest) => .ok rest
    | .error _ => .error .malformed
  else .error .malformed

/-- The next place, after one token or one value that is no container. -/
def next (p : Place) (text : Bytes) : Except Problem (Place × Bytes) :=
  match skipSpace text with
  | [] => .error .truncated
  | b :: rest =>
    match p.due with
    | .value =>
      if b = Byte.openBracket then afterOpening .array Byte.closeBracket p.around rest
      else if b = Byte.openBrace then afterOpening .object Byte.closeBrace p.around rest
      else (skipScalar b rest).map fun rest => (afterValue p.around, rest)
    | .key =>
      if b = Byte.quote then do
        let rest ← expectColon (← skipString rest)
        return (⟨.value, p.around⟩, rest)
      else .error .malformed
    | .continuation =>
      match p.around with
      | [] => .error .malformed
      | c :: outer =>
        if b = Byte.comma then .ok (⟨if c = .array then .value else .key, c :: outer⟩, rest)
        else if b = (if c = .array then Byte.closeBracket else Byte.closeBrace) then
          .ok (afterValue outer, rest)
        else .error .malformed

/-- The text after the outermost value. -/
def finish (p : Place) (text : Bytes) : Except Problem Bytes :=
  if p = afterValue [] then .ok text
  else match p.next text with
    | .error e => .error e
    | .ok (p, rest) => if _h : rest.length < text.length then p.finish rest else .error .malformed
termination_by text.length

end Place

/-- The text after the value at its start. -/
def skipValue (text : Bytes) : Except Problem Bytes := Place.finish ⟨.value, []⟩ text

end GoalProgress.Json
