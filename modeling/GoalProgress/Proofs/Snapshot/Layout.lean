import GoalProgress.Proofs.Program
import GoalProgress.Proofs.Snapshot.Codec
import GoalProgress.Proofs.Text.Encoding

/-!
# The layout of a snapshot file

Which bytes stand for which snapshot, whoever wrote them: a number may have more groups of bits than
it needs, and everything else is laid out in one way only. A file is read exactly if it starts with
such bytes, and what is read is what they stand for.

## Main definitions

* `Varint.Spells`: the bytes that stand for a number.
* `Snapshot.Spells`: the bytes that stand for a snapshot, and `Snapshot.SpellsContents` those that
  follow its version.
* `Snapshot.Reads`: a decoding that reads what is laid out in a given way, and nothing else.
-/
namespace GoalProgress

/-! ## Numbers -/

namespace Varint

/-- The number that groups of seven bits make up, lowest first. -/
def value : Bytes → Nat
  | [] => 0
  | b :: groups => b.toNat % 128 + 128 * value groups

/-- The high bit is set on every byte but the last. -/
def Terminated (groups : Bytes) : Prop :=
  ∃ front last, groups = front ++ [last] ∧ (∀ b ∈ front, 128 ≤ b.toNat) ∧ last.toNat < 128

/-- Bytes that stand for a number of the given width. -/
structure Spells (width : Width) (n : Nat) (groups : Bytes) : Prop where
  terminated : Terminated groups
  length_le : groups.length ≤ width.bytes
  value_eq : value groups = n
  lt_limit : n < width.limit

theorem not_terminated_nil : ¬ Terminated [] := by
  rintro ⟨front, last, h, -, -⟩
  simp at h

theorem Terminated.length_pos {groups : Bytes} (h : Terminated groups) : 0 < groups.length := by
  apply List.length_pos_iff.2
  rintro rfl
  exact not_terminated_nil h

theorem terminated_cons_iff {b : UInt8} {groups : Bytes} :
    Terminated (b :: groups) ↔
      (groups = [] ∧ b.toNat < 128) ∨ (128 ≤ b.toNat ∧ Terminated groups) := by
  constructor
  · rintro ⟨front, last, h, hfront, hlast⟩
    cases front with
    | nil =>
      obtain ⟨rfl, rfl⟩ := List.cons.inj h
      exact .inl ⟨rfl, hlast⟩
    | cons first front =>
      obtain ⟨rfl, rfl⟩ := List.cons.inj h
      rw [List.forall_mem_cons] at hfront
      exact .inr ⟨hfront.1, front, last, rfl, hfront.2, hlast⟩
  · rintro (⟨rfl, hb⟩ | ⟨hb, front, last, rfl, hfront, hlast⟩)
    · exact ⟨[], b, rfl, nofun, hb⟩
    · exact ⟨b :: front, last, rfl, List.forall_mem_cons.2 ⟨hb, hfront⟩, hlast⟩

/-- The groups of a number end with the first byte or go on behind it. -/
theorem exists_terminated_cons_iff {b : UInt8} {bs rest : Bytes} {P : Bytes → Prop} :
    (∃ groups, b :: bs = groups ++ rest ∧ Terminated groups ∧ P groups) ↔
      (b.toNat < 128 ∧ bs = rest ∧ P [b]) ∨
        (128 ≤ b.toNat ∧ ∃ groups, bs = groups ++ rest ∧ Terminated groups ∧ P (b :: groups)) := by
  constructor
  · rintro ⟨groups, happend, hgroups, hP⟩
    cases groups with
    | nil => exact absurd hgroups not_terminated_nil
    | cons first groups =>
      obtain ⟨rfl, rfl⟩ := List.cons.inj happend
      rcases terminated_cons_iff.1 hgroups with ⟨rfl, hb⟩ | ⟨hb, hbehind⟩
      · exact .inl ⟨hb, rfl, hP⟩
      · exact .inr ⟨hb, groups, rfl, hbehind, hP⟩
  · rintro (⟨hb, rfl, hP⟩ | ⟨hb, groups, rfl, hgroups, hP⟩)
    · exact ⟨[b], rfl, terminated_cons_iff.2 (.inl ⟨rfl, hb⟩), hP⟩
    · exact ⟨b :: groups, rfl, terminated_cons_iff.2 (.inr ⟨hb, hgroups⟩), hP⟩

theorem limitBehind_pos (lastMax count : Nat) : 0 < limitBehind lastMax count := by
  induction count with
  | zero => simp [limitBehind]
  | succ count ih => simp [limitBehind, ih]

theorem lt_limitBehind_iff {lastMax b count : Nat} (hb : b < 128) :
    b < limitBehind lastMax count ↔ ¬ (count = 0 ∧ lastMax < b) := by
  cases count with
  | zero =>
    rw [limitBehind]
    omega
  | succ count =>
    have hpos := limitBehind_pos lastMax count
    rw [limitBehind]
    omega

theorem group_lt_limitBehind_iff {lastMax b m count : Nat} (hb : b < 128) :
    b + 128 * m < limitBehind lastMax (count + 1) ↔ m < limitBehind lastMax count := by
  rw [limitBehind]
  omega

section Decoding

variable {lastMax count n : Nat} {b : UInt8} {bs rest : Bytes}

theorem decodeFrom_last_iff (hb : b.toNat < 128) :
    decodeFrom lastMax (count + 1) (b :: bs) = .ok (n, rest) ↔
      bs = rest ∧ b.toNat = n ∧ n < limitBehind lastMax count := by
  have hlimit : b.toNat < limitBehind lastMax count ↔ ¬ (count = 0 ∧ lastMax < b.toNat) :=
    lt_limitBehind_iff hb
  rw [decodeFrom, if_pos hb]
  by_cases hlast : count = 0 ∧ lastMax < b.toNat
  · rw [if_pos hlast]
    constructor
    · intro h
      cases h
    · rintro ⟨-, rfl, hlt⟩
      exact absurd hlast (hlimit.1 hlt)
  · rw [if_neg hlast]
    constructor
    · intro h
      cases h
      exact ⟨rfl, rfl, hlimit.2 hlast⟩
    · rintro ⟨rfl, rfl, -⟩
      rfl

theorem decodeFrom_group_iff (hb : 128 ≤ b.toNat) :
    decodeFrom lastMax (count + 1) (b :: bs) = .ok (n, rest) ↔
      ∃ m, decodeFrom lastMax count bs = .ok (m, rest) ∧ b.toNat % 128 + 128 * m = n := by
  have hbyte := b.toNat_lt
  have hgroup : b.toNat - 128 = b.toNat % 128 := by omega
  rw [decodeFrom, if_neg (by omega), hgroup]
  cases decodeFrom lastMax count bs with
  | error problem => simp [Except.map]
  | ok found =>
    constructor
    · intro h
      cases h
      exact ⟨_, rfl, rfl⟩
    · rintro ⟨m, h, rfl⟩
      cases h
      rfl

/-- A number is read exactly where its groups are. -/
theorem decodeFrom_eq_ok_iff :
    decodeFrom lastMax count bs = .ok (n, rest) ↔
      ∃ groups, bs = groups ++ rest ∧ Terminated groups ∧ groups.length ≤ count ∧
        value groups = n ∧ n < limitBehind lastMax (count - 1) := by
  induction bs generalizing count n with
  | nil =>
    have herror : decodeFrom lastMax count [] ≠ .ok (n, rest) := by
      cases count <;> simp [decodeFrom]
    refine iff_of_false herror ?_
    rintro ⟨groups, happend, hgroups, -⟩
    obtain ⟨rfl, -⟩ := List.append_eq_nil_iff.1 happend.symm
    exact not_terminated_nil hgroups
  | cons b bs ih =>
    rw [exists_terminated_cons_iff]
    cases count with
    | zero => simp [decodeFrom]
    | succ count =>
      by_cases hb : b.toNat < 128
      · have hvalue : value [b] = b.toNat := Nat.mod_eq_of_lt hb
        have hnot : ¬ 128 ≤ b.toNat := by omega
        simp [decodeFrom_last_iff hb, hvalue, hb, hnot]
      · have hlt : b.toNat % 128 < 128 := Nat.mod_lt _ (by decide)
        rw [decodeFrom_group_iff (by omega)]
        constructor
        · rintro ⟨m, hm, rfl⟩
          obtain ⟨groups, happend, hgroups, hlength, rfl, hlimit⟩ := ih.1 hm
          have hpos : 0 < count := Nat.lt_of_lt_of_le hgroups.length_pos hlength
          obtain ⟨k, rfl⟩ := Nat.exists_eq_add_one.2 hpos
          exact .inr ⟨by omega, groups, happend, hgroups, Nat.succ_le_succ hlength, rfl,
            (group_lt_limitBehind_iff hlt).2 hlimit⟩
        · rintro (⟨hsmall, -⟩ | ⟨-, groups, happend, hgroups, hlength, rfl, hlimit⟩)
          · exact absurd hsmall hb
          · have hlength : groups.length ≤ count := Nat.le_of_succ_le_succ hlength
            have hpos : 0 < count := Nat.lt_of_lt_of_le hgroups.length_pos hlength
            obtain ⟨k, rfl⟩ := Nat.exists_eq_add_one.2 hpos
            exact ⟨value groups, ih.2 ⟨groups, happend, hgroups, hlength, rfl,
              (group_lt_limitBehind_iff hlt).1 hlimit⟩, rfl⟩

end Decoding

/-- **A number is read exactly where bytes are that stand for it.** -/
theorem decode_eq_ok_iff {width : Width} {n : Nat} {bs rest : Bytes} :
    decode width bs = .ok (n, rest) ↔ ∃ groups, bs = groups ++ rest ∧ Spells width n groups := by
  rw [decode, decodeFrom_eq_ok_iff]
  constructor
  · rintro ⟨groups, happend, hgroups, hlength, hvalue, hlimit⟩
    exact ⟨groups, happend, hgroups, hlength, hvalue, hlimit⟩
  · rintro ⟨groups, happend, h⟩
    exact ⟨groups, happend, h.terminated, h.length_le, h.value_eq, h.lt_limit⟩

end Varint

/-! ## Parts of a snapshot -/

namespace Snapshot

section Layout

variable {α : Type} (spells : α → Bytes → Prop)

/-- A length and as many bytes. -/
def SpellsBytes (bs part : Bytes) : Prop :=
  ∃ groups, Varint.Spells .word64 bs.length groups ∧ part = groups ++ bs

/-- The UTF-8 bytes of a text with their length. -/
def SpellsText (s : String) (part : Bytes) : Prop := SpellsBytes (Bytes.ofString s) part

/-- Elements one after the other. -/
inductive SpellsElements : List α → Bytes → Prop where
  | nil : SpellsElements [] []
  | cons {a : α} {as : List α} {part parts : Bytes} (head : spells a part)
      (tail : SpellsElements as parts) : SpellsElements (a :: as) (part ++ parts)

/-- A count and as many elements. -/
def SpellsList (as : List α) (part : Bytes) : Prop :=
  ∃ groups parts, Varint.Spells .word64 as.length groups ∧ SpellsElements spells as parts ∧
    part = groups ++ parts

end Layout

/-- The id, the document and the ids of the goals. -/
def SpellsChallenge (c : SnapshotChallenge) (part : Bytes) : Prop :=
  ∃ id document goalIds, SpellsText c.id id ∧ SpellsBytes c.document document ∧
    SpellsList SpellsText c.goalIds goalIds ∧ part = id ++ document ++ goalIds

/-- The id and the document. -/
def SpellsGoal (g : String × Bytes) (part : Bytes) : Prop :=
  ∃ id document, SpellsText g.1 id ∧ SpellsBytes g.2 document ∧ part = id ++ document

/-- What follows the version: the writer, the challenges and the goals. -/
def SpellsContents (s : Snapshot) (part : Bytes) : Prop :=
  ∃ writer challenges goals, SpellsText s.writer writer ∧
    SpellsList SpellsChallenge s.challenges challenges ∧ SpellsList SpellsGoal s.goals goals ∧
    part = writer ++ challenges ++ goals

/-- The bytes stand for a snapshot. -/
def Spells (s : Snapshot) (part : Bytes) : Prop :=
  ∃ version contents, Varint.Spells .word32 s.version version ∧ s.SpellsContents contents ∧
    part = version ++ contents

/-- A decoding reads what is laid out in a given way, and nothing else. -/
structure Reads {α : Type} (spells : α → Bytes → Prop)
    (decode : Bytes → Except DecodeProblem (α × Bytes)) : Prop where
  eq_ok_iff : ∀ {bs a rest}, decode bs = .ok (a, rest) ↔ ∃ part, bs = part ++ rest ∧ spells a part

namespace Reads

variable {α β : Type} {spells : α → Bytes → Prop}
  {decode : Bytes → Except DecodeProblem (α × Bytes)}

theorem number (width : Varint.Width) : Reads (Varint.Spells width) (Varint.decode width) where
  eq_ok_iff := Varint.decode_eq_ok_iff

/-- What is decoded next starts behind the part that was read. -/
theorem bind_iff (h : Reads spells decode) {bs : Bytes} {b : β}
    {next : α × Bytes → Except DecodeProblem β} :
    decode bs >>= next = .ok b ↔
      ∃ a part rest, bs = part ++ rest ∧ spells a part ∧ next (a, rest) = .ok b := by
  rw [bind_eq_ok_iff]
  constructor
  · rintro ⟨⟨a, rest⟩, hdecode, hnext⟩
    obtain ⟨part, happend, hpart⟩ := h.eq_ok_iff.1 hdecode
    exact ⟨a, part, rest, happend, hpart, hnext⟩
  · rintro ⟨a, part, rest, happend, hpart, hnext⟩
    exact ⟨(a, rest), h.eq_ok_iff.2 ⟨part, happend, hpart⟩, hnext⟩

theorem bytes : Reads SpellsBytes decodeBytes := by
  constructor
  intro bs body rest
  rw [decodeBytes, (number .word64).bind_iff]
  constructor
  · rintro ⟨n, groups, behind, rfl, hgroups, h⟩
    simp only at h
    split at h
    · cases h
    · rename_i hlength
      cases h
      have htake : (behind.take n).length = n := by
        rw [List.length_take]
        omega
      exact ⟨groups ++ behind.take n, by simp, groups, by rwa [htake], rfl⟩
  · rintro ⟨part, rfl, groups, hgroups, rfl⟩
    have hlength : ¬ (body ++ rest).length < body.length := by simp
    refine ⟨body.length, groups, body ++ rest, by simp, hgroups, ?_⟩
    simp only [if_neg hlength, List.take_left, List.drop_left]
    rfl

theorem text : Reads SpellsText decodeText := by
  constructor
  intro bs s rest
  rw [decodeText, bytes.bind_iff]
  constructor
  · rintro ⟨body, part, behind, rfl, hpart, h⟩
    simp only at h
    split at h
    · rename_i found hfound
      cases h
      obtain rfl := Bytes.toString?_eq_some_iff.1 hfound
      exact ⟨part, rfl, hpart⟩
    · cases h
  · rintro ⟨part, rfl, hpart⟩
    exact ⟨_, part, rest, rfl, hpart, by simp [pure, Except.pure]⟩

theorem elements (h : Reads spells decode) {n : Nat} {bs rest : Bytes} {as : List α} :
    decodeElements decode n bs = .ok (as, rest) ↔
      as.length = n ∧ ∃ parts, bs = parts ++ rest ∧ SpellsElements spells as parts := by
  induction n generalizing bs as with
  | zero =>
    rw [decodeElements]
    constructor
    · intro heq
      cases heq
      exact ⟨rfl, [], rfl, .nil⟩
    · rintro ⟨hlength, parts, rfl, hparts⟩
      obtain rfl := List.length_eq_zero_iff.1 hlength
      cases hparts
      rfl
  | succ n ih =>
    rw [decodeElements, h.bind_iff]
    constructor
    · rintro ⟨a, part, behind, rfl, hpart, hnext⟩
      obtain ⟨⟨as, left⟩, hrest, hresult⟩ := bind_eq_ok_iff.1 hnext
      cases hresult
      obtain ⟨hlength, parts, rfl, hparts⟩ := ih.1 hrest
      exact ⟨congrArg (· + 1) hlength, part ++ parts, by simp, .cons hpart hparts⟩
    · rintro ⟨hlength, parts, rfl, hparts⟩
      cases hparts with
      | nil => cases hlength
      | cons head tail =>
        rename_i a as part parts
        have hrest := ih.2 ⟨Nat.succ.inj hlength, parts, rfl, tail⟩
        exact ⟨a, part, parts ++ rest, by simp, head,
          bind_eq_ok_iff.2 ⟨_, hrest, rfl⟩⟩

theorem list (h : Reads spells decode) : Reads (SpellsList spells) (decodeList decode) := by
  constructor
  intro bs as rest
  rw [decodeList, (number .word64).bind_iff]
  constructor
  · rintro ⟨n, groups, behind, rfl, hgroups, hnext⟩
    obtain ⟨rfl, parts, rfl, hparts⟩ := h.elements.1 hnext
    exact ⟨groups ++ parts, by simp, groups, parts, hgroups, hparts, rfl⟩
  · rintro ⟨part, rfl, groups, parts, hgroups, hparts, rfl⟩
    exact ⟨as.length, groups, parts ++ rest, by simp, hgroups,
      h.elements.2 ⟨rfl, parts, rfl, hparts⟩⟩

theorem challenge : Reads SpellsChallenge decodeChallenge := by
  constructor
  intro bs c rest
  rw [decodeChallenge, text.bind_iff]
  constructor
  · rintro ⟨id, part, behind, rfl, hid, hnext⟩
    obtain ⟨document, part', behind', rfl, hdocument, hnext⟩ := bytes.bind_iff.1 hnext
    obtain ⟨goalIds, part'', behind'', rfl, hgoalIds, hnext⟩ := text.list.bind_iff.1 hnext
    cases hnext
    exact ⟨part ++ part' ++ part'', by simp, part, part', part'', hid, hdocument, hgoalIds, rfl⟩
  · rintro ⟨_, rfl, part, part', part'', hid, hdocument, hgoalIds, rfl⟩
    exact ⟨c.id, part, part' ++ (part'' ++ rest), by simp, hid,
      bytes.bind_iff.2 ⟨c.document, part', part'' ++ rest, rfl, hdocument,
        text.list.bind_iff.2 ⟨c.goalIds, part'', rest, rfl, hgoalIds, rfl⟩⟩⟩

theorem goal : Reads SpellsGoal decodeGoal := by
  constructor
  intro bs g rest
  rw [decodeGoal, text.bind_iff]
  constructor
  · rintro ⟨id, part, behind, rfl, hid, hnext⟩
    obtain ⟨document, part', behind', rfl, hdocument, hnext⟩ := bytes.bind_iff.1 hnext
    cases hnext
    exact ⟨part ++ part', by simp, part, part', hid, hdocument, rfl⟩
  · rintro ⟨_, rfl, part, part', hid, hdocument, rfl⟩
    exact ⟨g.1, part, part' ++ rest, by simp, hid,
      bytes.bind_iff.2 ⟨g.2, part', rest, rfl, hdocument, rfl⟩⟩

end Reads

/-- What follows the version is decoded exactly if it is laid out as the contents of a snapshot. -/
theorem decode_eq_ok_iff_of_version {version : Nat} {bs behind : Bytes} {s : Snapshot}
    (h : Varint.decode .word32 bs = .ok (version, behind)) :
    decode bs = .ok s ↔
      s.version = version ∧ ∃ part rest, behind = part ++ rest ∧ s.SpellsContents part := by
  constructor
  · intro hdecode
    obtain ⟨first, hfirst, hnext⟩ := bind_eq_ok_iff.1 hdecode
    obtain rfl : (version, behind) = first := Except.ok.inj (h.symm.trans hfirst)
    obtain ⟨writer, part, _, rfl, hwriter, hnext⟩ := Reads.text.bind_iff.1 hnext
    obtain ⟨challenges, part', _, rfl, hchallenges, hnext⟩ := Reads.challenge.list.bind_iff.1 hnext
    obtain ⟨goals, part'', rest, rfl, hgoals, hnext⟩ := Reads.goal.list.bind_iff.1 hnext
    cases hnext
    exact ⟨rfl, part ++ part' ++ part'', rest, by simp, part, part', part'', hwriter, hchallenges,
      hgoals, rfl⟩
  · rintro ⟨rfl, _, rest, rfl, part, part', part'', hwriter, hchallenges, hgoals, rfl⟩
    refine bind_eq_ok_iff.2 ⟨_, h, ?_⟩
    refine Reads.text.bind_iff.2 ⟨s.writer, part, part' ++ (part'' ++ rest), by simp, hwriter, ?_⟩
    refine Reads.challenge.list.bind_iff.2
      ⟨s.challenges, part', part'' ++ rest, rfl, hchallenges, ?_⟩
    exact Reads.goal.list.bind_iff.2 ⟨s.goals, part'', rest, rfl, hgoals, rfl⟩

/-- **A file is read exactly if it starts with the bytes of a snapshot**, and as that snapshot. -/
theorem decode_eq_ok_iff {bs : Bytes} {s : Snapshot} :
    decode bs = .ok s ↔ ∃ part rest, bs = part ++ rest ∧ s.Spells part := by
  constructor
  · intro h
    obtain ⟨⟨version, behind⟩, hversion, -⟩ := bind_eq_ok_iff.1 h
    obtain ⟨rfl, part, rest, rfl, hcontents⟩ := (decode_eq_ok_iff_of_version hversion).1 h
    obtain ⟨groups, rfl, hgroups⟩ := Varint.decode_eq_ok_iff.1 hversion
    exact ⟨groups ++ part, rest, by simp, groups, part, hgroups, hcontents, rfl⟩
  · rintro ⟨_, rest, rfl, groups, part, hgroups, hcontents, rfl⟩
    have hversion := Varint.decode_eq_ok_iff.2 ⟨groups, List.append_assoc groups part rest, hgroups⟩
    exact (decode_eq_ok_iff_of_version hversion).2 ⟨rfl, part, rest, rfl, hcontents⟩

end Snapshot

end GoalProgress
