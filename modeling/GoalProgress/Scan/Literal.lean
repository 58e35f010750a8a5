import GoalProgress.Bytes

/-!
# Being inside a string literal

A scanner that looks for brackets and braces has to pass over those inside string literals. It needs
to remember two things only: whether it is inside a literal, and whether the byte before was a
backslash that takes the next byte with it.
-/
namespace GoalProgress.Scan

/-- What a scanner remembers of the bytes before it. -/
structure Literal where
  inside : Bool
  escaped : Bool
deriving DecidableEq, Repr

namespace Literal

/-- Outside every literal, with no backslash pending. -/
def outside : Literal := ⟨false, false⟩

/-- What is remembered after one more byte. -/
def next (s : Literal) (b : UInt8) : Literal :=
  if s.escaped then { s with escaped := false }
  else if b = Byte.backslash then { s with escaped := true }
  else if b = Byte.quote then { s with inside := !s.inside }
  else s

/-- Whether a byte is structure: outside every literal, and itself no quote and no backslash. -/
def isStructural (s : Literal) (b : UInt8) : Bool :=
  !s.escaped && b != Byte.backslash && b != Byte.quote && !s.inside

/-- What is remembered after a run of bytes. -/
def after (s : Literal) (bs : Bytes) : Literal := bs.foldl next s

@[simp] theorem after_nil (s : Literal) : s.after [] = s := rfl

@[simp] theorem after_cons (s : Literal) (b : UInt8) (bs : Bytes) :
    s.after (b :: bs) = (s.next b).after bs := rfl

@[simp] theorem after_append (s : Literal) (bs cs : Bytes) :
    s.after (bs ++ cs) = (s.after bs).after cs := by simp [after]

end Literal

end GoalProgress.Scan
