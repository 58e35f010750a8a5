import GoalProgress.Snapshot

/-!
# A snapshot is read back

Every part of a snapshot is read back as it was written, whatever bytes follow it. The only
condition is on lengths: they are written as numbers of 64 bits, so that a file of at most that
length has none that is too great.

## Main definitions

* `Varint.Width.limit`: the least number that has no place in a width.
* `Snapshot.ReadsBack`: an encoding and a decoding that belong together.
-/
namespace GoalProgress

/-! ## Numbers -/

namespace Varint

/-- The least number that has no place in `count` groups of seven bits and a last one. -/
def limitBehind (lastMax : Nat) : (count : Nat) → Nat
  | 0 => lastMax + 1
  | count + 1 => 128 * limitBehind lastMax count

/-- The least number that is too great for a width. -/
def Width.limit (width : Width) : Nat := limitBehind width.lastMax (width.bytes - 1)

theorem limit_word32 : Width.word32.limit = UInt32.size := rfl

theorem limit_word64 : Width.word64.limit = UInt64.size := rfl

theorem encode_ne_nil (n : Nat) : encode n ≠ [] := by
  rw [encode]
  split <;> exact List.cons_ne_nil _ _

/-- A number is read back if its groups fit the bytes it may have. -/
theorem decodeFrom_encode {lastMax : Nat} (hmax : lastMax < 128) (n : Nat) {count : Nat}
    (h : n < limitBehind lastMax count) (rest : Bytes) :
    decodeFrom lastMax (count + 1) (encode n ++ rest) = .ok (n, rest) := by
  induction n using encode.induct generalizing count with
  | case1 n hn =>
    have hbyte : (UInt8.ofNat n).toNat = n := by
      rw [UInt8.toNat_ofNat']
      omega
    have hlast : ¬ (count = 0 ∧ lastMax < n) := by
      rintro ⟨rfl, hlt⟩
      rw [limitBehind] at h
      omega
    rw [encode, if_pos hn, List.singleton_append, decodeFrom, hbyte, if_pos hn, if_neg hlast]
  | case2 n hn ih =>
    have hbyte : (UInt8.ofNat (n % 128 + 128)).toNat = n % 128 + 128 := by
      rw [UInt8.toNat_ofNat']
      omega
    rw [encode, if_neg hn, List.cons_append, decodeFrom, hbyte, if_neg (by omega)]
    cases count with
    | zero =>
      rw [limitBehind] at h
      omega
    | succ count =>
      rw [limitBehind] at h
      rw [ih (Nat.div_lt_of_lt_mul h)]
      have hsum : n % 128 + 128 - 128 + 128 * (n / 128) = n := by omega
      simp only [Except.map, hsum]

/-- **A number below the limit of a width is read back.** -/
theorem decode_encode {width : Width} (hmax : width.lastMax < 128) (hbytes : 0 < width.bytes)
    {n : Nat} (h : n < width.limit) (rest : Bytes) :
    decode width (encode n ++ rest) = .ok (n, rest) := by
  rw [decode, ← Nat.sub_add_cancel hbytes]
  exact decodeFrom_encode hmax n h rest

end Varint

/-! ## Parts of a snapshot -/

namespace Snapshot

theorem decode_length {n : Nat} (h : n < UInt64.size) (rest : Bytes) :
    Varint.decode .word64 (Varint.encode n ++ rest) = .ok (n, rest) :=
  Varint.decode_encode (by decide) (by decide) (Varint.limit_word64 ▸ h) rest

/-- Everything whose encoding has a length of 64 bits is read back, and what follows is left
over. -/
structure ReadsBack {α : Type} (encode : α → Bytes)
    (decode : Bytes → Except DecodeProblem (α × Bytes)) : Prop where
  ne_nil : ∀ a, encode a ≠ []
  decode_append : ∀ {a}, (encode a).length < UInt64.size → ∀ rest,
    decode (encode a ++ rest) = .ok (a, rest)

namespace ReadsBack

variable {α : Type} {encode : α → Bytes} {decode : Bytes → Except DecodeProblem (α × Bytes)}

theorem bytes : ReadsBack encodeBytes decodeBytes := by
  constructor
  · intro bs h
    exact Varint.encode_ne_nil _ (List.append_eq_nil_iff.1 h).1
  · intro bs h rest
    rw [encodeBytes, List.length_append] at h
    rw [encodeBytes, decodeBytes, List.append_assoc, decode_length (by omega)]
    simp [bind, Except.bind, pure, Except.pure]

theorem text : ReadsBack encodeText decodeText := by
  constructor
  · intro s
    exact bytes.ne_nil _
  · intro s h rest
    rw [encodeText, decodeText, bytes.decode_append h]
    simp [bind, Except.bind, pure, Except.pure]

/-- No element of a list is longer than the list, and there are at most as many as bytes. -/
theorem length_le (h : ReadsBack encode decode) (as : List α) :
    as.length ≤ (as.flatMap encode).length ∧
      ∀ a ∈ as, (encode a).length ≤ (as.flatMap encode).length := by
  induction as with
  | nil => simp
  | cons a as ih =>
    have hpos := List.length_pos_iff.2 (h.ne_nil a)
    rw [List.flatMap_cons, List.length_append, List.length_cons, List.forall_mem_cons]
    refine ⟨by omega, by omega, fun b hb => ?_⟩
    exact Nat.le_trans (ih.2 b hb) (Nat.le_add_left _ _)

theorem decodeElements (h : ReadsBack encode decode) (as : List α)
    (has : ∀ a ∈ as, (encode a).length < UInt64.size) (rest : Bytes) :
    Snapshot.decodeElements decode as.length (as.flatMap encode ++ rest) = .ok (as, rest) := by
  induction as with
  | nil => rfl
  | cons a as ih =>
    rw [List.forall_mem_cons] at has
    rw [List.length_cons, Snapshot.decodeElements, List.flatMap_cons, List.append_assoc,
      h.decode_append has.1]
    simp only [bind, Except.bind, ih has.2]
    rfl

theorem list (h : ReadsBack encode decode) : ReadsBack (encodeList encode) (decodeList decode) := by
  constructor
  · intro as hnil
    exact Varint.encode_ne_nil _ (List.append_eq_nil_iff.1 hnil).1
  · intro as hlength rest
    obtain ⟨hcount, hle⟩ := h.length_le as
    rw [encodeList, List.length_append] at hlength
    rw [encodeList, decodeList, List.append_assoc, decode_length (by omega)]
    exact h.decodeElements as (fun a ha => by have := hle a ha; omega) rest

theorem challenge : ReadsBack encodeChallenge decodeChallenge := by
  constructor
  · intro c hnil
    exact text.ne_nil _ (List.append_eq_nil_iff.1 (List.append_eq_nil_iff.1 hnil).1).1
  · intro c h rest
    rw [encodeChallenge, List.length_append, List.length_append] at h
    have hid := text.decode_append (a := c.id) (by omega)
    have hdoc := bytes.decode_append (a := c.document) (by omega)
    have hgoals := text.list.decode_append (a := c.goalIds) (by omega)
    rw [encodeChallenge, decodeChallenge, List.append_assoc, List.append_assoc]
    simp only [bind, Except.bind, hid, hdoc, hgoals]
    rfl

theorem goal : ReadsBack encodeGoal decodeGoal := by
  constructor
  · intro g hnil
    exact text.ne_nil _ (List.append_eq_nil_iff.1 hnil).1
  · intro g h rest
    rw [encodeGoal, List.length_append] at h
    have hid := text.decode_append (a := g.1) (by omega)
    have hdoc := bytes.decode_append (a := g.2) (by omega)
    rw [encodeGoal, decodeGoal, List.append_assoc]
    simp only [bind, Except.bind, hid, hdoc]
    rfl

end ReadsBack

/-- **A snapshot is read back from its file**, also if bytes are appended to the file. -/
theorem decode_encode {s : Snapshot} (hversion : s.version < UInt32.size)
    (hlength : s.encode.length < UInt64.size) (rest : Bytes) :
    decode (s.encode ++ rest) = .ok s := by
  have hversion' := Varint.decode_encode (by decide) (by decide) (Varint.limit_word32 ▸ hversion)
  simp only [encode, List.length_append] at hlength
  have hwriter := ReadsBack.text.decode_append (a := s.writer) (by omega)
  have hchallenges := ReadsBack.challenge.list.decode_append (a := s.challenges) (by omega)
  have hgoals := ReadsBack.goal.list.decode_append (a := s.goals) (by omega)
  rw [encode, decode, List.append_assoc, List.append_assoc, List.append_assoc]
  simp only [bind, Except.bind, hversion', hwriter, hchallenges, hgoals]
  rfl

end Snapshot

end GoalProgress
