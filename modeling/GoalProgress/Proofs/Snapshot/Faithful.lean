import GoalProgress.Proofs.Snapshot.Codec

/-!
# A snapshot is never misread

A snapshot that is too long to be read back is not read as another one: whatever is read from what
was written is what was written. There is no condition on lengths.

## Main definitions

* `Snapshot.Faithful`: an encoding and a decoding that never reads anything else.
-/
namespace GoalProgress

/-- A number with too many groups of bits is refused, and not read as another one. -/
theorem Varint.eq_of_decodeFrom_encode {lastMax : Nat} (n : Nat) {count : Nat} {rest : Bytes}
    {out : Nat × Bytes} (h : decodeFrom lastMax count (encode n ++ rest) = .ok out) :
    out = (n, rest) := by
  induction n using encode.induct generalizing count out with
  | case1 n hn =>
    have hbyte : (UInt8.ofNat n).toNat = n := by
      rw [UInt8.toNat_ofNat']
      omega
    rw [encode, if_pos hn, List.singleton_append] at h
    cases count with
    | zero => cases h
    | succ count =>
      rw [decodeFrom, hbyte, if_pos hn] at h
      split at h
      · cases h
      · exact (Except.ok.inj h).symm
  | case2 n hn ih =>
    have hbyte : (UInt8.ofNat (n % 128 + 128)).toNat = n % 128 + 128 := by
      rw [UInt8.toNat_ofNat']
      omega
    rw [encode, if_neg hn, List.cons_append] at h
    cases count with
    | zero => cases h
    | succ count =>
      rw [decodeFrom, hbyte, if_neg (by omega)] at h
      cases hrest : decodeFrom lastMax count (encode (n / 128) ++ rest) with
      | error problem =>
        rw [hrest] at h
        cases h
      | ok groups =>
        rw [hrest, ih hrest] at h
        have hsum : n % 128 + 128 - 128 + 128 * (n / 128) = n := by omega
        rw [← Except.ok.inj h]
        simp only [hsum]

namespace Snapshot

/-- Whatever is read where something was written is what was written, and what follows is left
over. -/
structure Faithful {α : Type} (encode : α → Bytes)
    (decode : Bytes → Except DecodeProblem (α × Bytes)) : Prop where
  eq_of_decode : ∀ {a rest out}, decode (encode a ++ rest) = .ok out → out = (a, rest)

namespace Faithful

variable {α : Type} {encode : α → Bytes} {decode : Bytes → Except DecodeProblem (α × Bytes)}

theorem number (width : Varint.Width) : Faithful Varint.encode (Varint.decode width) where
  eq_of_decode := Varint.eq_of_decodeFrom_encode _

/-- What is decoded next starts behind what was written. -/
theorem bind_eq_ok {β : Type} (hf : Faithful encode decode) {a : α} {rest : Bytes} {b : β}
    {next : α × Bytes → Except DecodeProblem β}
    (h : (decode (encode a ++ rest) >>= next) = .ok b) : next (a, rest) = .ok b := by
  cases hout : decode (encode a ++ rest) with
  | error problem =>
    rw [hout] at h
    cases h
  | ok out =>
    rw [hout, hf.eq_of_decode hout] at h
    exact h

theorem bytes : Faithful encodeBytes decodeBytes := by
  refine ⟨fun {bs rest out} h => ?_⟩
  rw [encodeBytes, decodeBytes, List.append_assoc] at h
  have hnext := (number .word64).bind_eq_ok h
  have hlength : ¬ (bs ++ rest).length < bs.length := by
    rw [List.length_append]
    omega
  simp only [hlength, if_false, List.take_left, List.drop_left] at hnext
  exact (Except.ok.inj hnext).symm

theorem text : Faithful encodeText decodeText := by
  refine ⟨fun {s rest out} h => ?_⟩
  rw [encodeText, decodeText] at h
  have hnext := bytes.bind_eq_ok h
  simp only [Bytes.toString?_ofString] at hnext
  exact (Except.ok.inj hnext).symm

theorem elements (hf : Faithful encode decode) (as : List α) {rest : Bytes}
    {out : List α × Bytes}
    (h : decodeElements decode as.length (as.flatMap encode ++ rest) = .ok out) :
    out = (as, rest) := by
  induction as generalizing out with
  | nil => exact (Except.ok.inj h).symm
  | cons a as ih =>
    rw [List.length_cons, decodeElements, List.flatMap_cons, List.append_assoc] at h
    have hnext := hf.bind_eq_ok h
    cases hrest : decodeElements decode as.length (as.flatMap encode ++ rest) with
    | error problem =>
      simp only [hrest] at hnext
      cases hnext
    | ok found =>
      rw [ih hrest] at hrest
      simp only [hrest] at hnext
      exact (Except.ok.inj hnext).symm

theorem list (hf : Faithful encode decode) : Faithful (encodeList encode) (decodeList decode) := by
  refine ⟨fun {as rest out} h => ?_⟩
  rw [encodeList, decodeList, List.append_assoc] at h
  exact hf.elements as ((number .word64).bind_eq_ok h)

theorem challenge : Faithful encodeChallenge decodeChallenge := by
  refine ⟨fun {c rest out} h => ?_⟩
  rw [encodeChallenge, decodeChallenge, List.append_assoc, List.append_assoc] at h
  have hid := text.bind_eq_ok h
  have hdoc := bytes.bind_eq_ok hid
  have hgoals := text.list.bind_eq_ok hdoc
  exact (Except.ok.inj hgoals).symm

theorem goal : Faithful encodeGoal decodeGoal := by
  refine ⟨fun {g rest out} h => ?_⟩
  rw [encodeGoal, decodeGoal, List.append_assoc] at h
  have hid := text.bind_eq_ok h
  have hdoc := bytes.bind_eq_ok hid
  exact (Except.ok.inj hdoc).symm

end Faithful

/-- **A snapshot is read back as it was written, or not at all.** -/
theorem eq_of_decode_encode {s found : Snapshot} (h : decode s.encode = .ok found) : found = s := by
  rw [encode, decode, List.append_assoc, List.append_assoc] at h
  have hversion := (Faithful.number .word32).bind_eq_ok h
  have hwriter := Faithful.text.bind_eq_ok hversion
  have hchallenges := Faithful.challenge.list.bind_eq_ok hwriter
  rw [← List.append_nil (encodeList encodeGoal s.goals)] at hchallenges
  have hgoals := Faithful.goal.list.bind_eq_ok hchallenges
  exact (Except.ok.inj hgoals).symm

end Snapshot

end GoalProgress
