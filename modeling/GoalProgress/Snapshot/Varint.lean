import GoalProgress.Error

/-!
# Numbers of variable length

A number is written in groups of seven bits, lowest first, with the high bit set on every byte but
the last. When a number is read back, the width of its type limits the bytes it may have.

## Main definitions

* `Varint.encode`: the bytes of a number.
* `Varint.decode`: the number at the start of the bytes.
-/
namespace GoalProgress.Varint

/-- How many bytes a number may have, and the greatest value of the last of them. -/
structure Width where
  bytes : Nat
  lastMax : Nat

/-- Numbers of 32 bits. -/
def Width.word32 : Width := ⟨5, 15⟩

/-- Numbers of 64 bits. -/
def Width.word64 : Width := ⟨10, 1⟩

/-- The bytes of a number. -/
def encode (n : Nat) : Bytes :=
  if n < 128 then [UInt8.ofNat n] else UInt8.ofNat (n % 128 + 128) :: encode (n / 128)
termination_by n
decreasing_by omega

/-- The number at the start of the bytes, of at most `count` bytes, and the bytes after it. -/
def decodeFrom (lastMax : Nat) : (count : Nat) → Bytes → Except DecodeProblem (Nat × Bytes)
  | 0, _ => .error .badVarint
  | _ + 1, [] => .error .endOfBuffer
  | count + 1, b :: rest =>
    if b.toNat < 128 then
      if count = 0 ∧ lastMax < b.toNat then .error .badVarint else .ok (b.toNat, rest)
    else
      (decodeFrom lastMax count rest).map fun (n, rest) => (b.toNat - 128 + 128 * n, rest)

/-- The number at the start of the bytes, and the bytes after it. -/
def decode (width : Width) (bs : Bytes) : Except DecodeProblem (Nat × Bytes) :=
  decodeFrom width.lastMax width.bytes bs

end GoalProgress.Varint
