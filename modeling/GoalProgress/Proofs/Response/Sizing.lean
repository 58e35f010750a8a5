import GoalProgress.Response
import Mathlib.Algebra.Ring.Nat

/-!
# The room for a response is one formula, cut off once

The room is computed with 64 bits, and every sum and product on the way stops at the greatest number
there is. Still it is what exact arithmetic gives, cut off at the end: all quantities only grow, and
the smaller of two of them is not changed by cutting off what is too great.

## Main definitions

* `Sizing.exactRoom`: the room without a greatest number.
-/
namespace GoalProgress

namespace ByteCount

variable (a b : ByteCount) (n m : Nat)

/-! ## Numbers that are cut off -/

theorem toNat_le_maximum : a.toNat ≤ maximum := by
  have hlt := a.toNat_lt
  simp only [maximum, UInt64.size]
  omega

@[simp] theorem clip_toNat : clip a.toNat = a := by
  rw [← UInt64.toNat_inj, toNat_clip, Nat.min_eq_left a.toNat_le_maximum]

theorem le_clip_iff : a ≤ clip n ↔ a.toNat ≤ n := by
  have hmax := a.toNat_le_maximum
  rw [UInt64.le_iff_toNat_le, toNat_clip]
  omega

theorem clip_le_clip {n m : Nat} (h : n ≤ m) : clip n ≤ clip m := by
  rw [UInt64.le_iff_toNat_le, toNat_clip, toNat_clip]
  omega

theorem plus_clip : plus (clip n) (clip m) = clip (n + m) := by
  rw [← UInt64.toNat_inj, toNat_plus, toNat_clip, toNat_clip, toNat_clip]
  omega

theorem toNat_min : (min a b).toNat = min a.toNat b.toNat := by
  have hmin : min a b = if a ≤ b then a else b := rfl
  rw [hmin]
  by_cases h : a ≤ b
  · rw [if_pos h, Nat.min_eq_left (UInt64.le_iff_toNat_le.1 h)]
  · rw [if_neg h]
    rw [UInt64.le_iff_toNat_le] at h
    omega

/-- The smaller of two numbers is the same one after both are cut off. -/
theorem min_clip : min (clip n) (clip m) = clip (min n m) := by
  rw [← UInt64.toNat_inj, toNat_min, toNat_clip, toNat_clip, toNat_clip]
  omega

/-- A sum that is cut off at every step is the sum, cut off once. -/
theorem foldl_plus_clip {α : Type} (f : α → Nat) (as : List α) (n : Nat) :
    as.foldl (fun n a => plus n (clip (f a))) (clip n) = clip (n + (as.map f).sum) := by
  induction as generalizing n with
  | nil => rfl
  | cons a as ih => rw [List.foldl_cons, plus_clip, ih, List.map_cons, List.sum_cons, Nat.add_assoc]

end ByteCount

/-! ## The estimate -/

namespace Sizing

/-- The room for `static` bytes, `goals` goals and the given allowances, where no number is too
great. -/
def exactRoom (static goals envelope overhead : Nat) : Nat :=
  min (static + envelope + min goals (static / 2) * overhead)
    (4 * static + 128 * min goals (static / 2))

variable {static static' goals goals' envelope envelope' overhead overhead' : Nat}

theorem le_exactRoom : static ≤ exactRoom static goals envelope overhead := by
  apply Nat.le_min.2
  omega

/-- There are not more goals than half the bytes, so the limit is a multiple of the bytes. -/
theorem exactRoom_le : exactRoom static goals envelope overhead ≤ 68 * static := by
  apply Nat.le_trans (Nat.min_le_right _ _)
  omega

theorem exactRoom_mono (hstatic : static ≤ static') (hgoals : goals ≤ goals')
    (henvelope : envelope ≤ envelope') (hoverhead : overhead ≤ overhead') :
    exactRoom static goals envelope overhead ≤ exactRoom static' goals' envelope' overhead' := by
  have hbelieved : min goals (static / 2) ≤ min goals' (static' / 2) := by omega
  have hallowed := Nat.mul_le_mul hbelieved hoverhead
  apply Nat.le_min.2
  constructor
  · apply Nat.le_trans (Nat.min_le_left _ _)
    omega
  · apply Nat.le_trans (Nat.min_le_right _ _)
    omega

/-- **The room is computed exactly and cut off once.** -/
theorem reserve_eq (s : Sizing) (static goals envelope : ByteCount) :
    s.reserve static goals envelope =
      .clip (exactRoom static.toNat goals.toNat envelope.toNat s.goalOverhead.toNat) := by
  have hbelieved : (min goals (static / 2)).toNat = min goals.toNat (static.toNat / 2) := by
    rw [ByteCount.toNat_min, UInt64.toNat_div]
    rfl
  have hstatic : static.plus envelope = .clip (static.toNat + envelope.toNat) := rfl
  have hgrowth : maxGrowth.toNat = 4 := rfl
  have hsuffix : maxSuffix.toNat = 128 := rfl
  rw [reserve, hstatic, ByteCount.times, ByteCount.times, ByteCount.times, ByteCount.plus_clip,
    ByteCount.plus_clip, ByteCount.min_clip, hbelieved, hgrowth, hsuffix, exactRoom,
    Nat.mul_comm static.toNat, Nat.mul_comm _ 128]

theorem le_reserve (s : Sizing) (static goals envelope : ByteCount) :
    static ≤ s.reserve static goals envelope := by
  rw [reserve_eq, ByteCount.le_clip_iff]
  exact le_exactRoom

theorem reserve_le_clip (s : Sizing) (static goals envelope : ByteCount) :
    s.reserve static goals envelope ≤ .clip (68 * static.toNat) := by
  rw [reserve_eq]
  exact ByteCount.clip_le_clip exactRoom_le

theorem reserve_mono {s s' : Sizing} {static static' goals goals' envelope envelope' : ByteCount}
    (hstatic : static ≤ static') (hgoals : goals ≤ goals') (henvelope : envelope ≤ envelope')
    (hoverhead : s.goalOverhead ≤ s'.goalOverhead) :
    s.reserve static goals envelope ≤ s'.reserve static' goals' envelope' := by
  rw [UInt64.le_iff_toNat_le] at hstatic hgoals henvelope hoverhead
  rw [reserve_eq, reserve_eq]
  exact ByteCount.clip_le_clip (exactRoom_mono hstatic hgoals henvelope hoverhead)

end Sizing

namespace ResponseBuilder

theorem length_envelope : envelopeOpen.length + envelopeClose.length = 17 := by decide

/-- **The room for an envelope is reserved for the true numbers** of bytes and goals, each cut off
once. -/
theorem room_eq (builder : ResponseBuilder) (store : DocumentStore) (docs : List (String × Bytes)) :
    builder.room store docs =
      builder.sizing.reserve (.clip ((docs.map (·.2.length)).sum + 17))
        (.clip (docs.map fun d => (store.goalCount d.1).toNat).sum)
        builder.sizing.envelopeOverhead := by
  have hstatic := ByteCount.foldl_plus_clip (fun d : String × Bytes => d.2.length) docs 0
  have hgoals := ByteCount.foldl_plus_clip (fun d => (store.goalCount d.1).toNat) docs 0
  simp only [ByteCount.clip_toNat] at hgoals
  have hzero : (0 : ByteCount) = .clip 0 := rfl
  simp only [room, hzero, hstatic, hgoals, length_envelope, ByteCount.plus_clip, Nat.zero_add]

/-- The order of the documents makes no difference. -/
theorem room_eq_of_perm (builder : ResponseBuilder) (store : DocumentStore)
    {docs docs' : List (String × Bytes)} (h : docs.Perm docs') :
    builder.room store docs = builder.room store docs' := by
  rw [room_eq, room_eq, (h.map _).sum_nat, (h.map _).sum_nat]

end ResponseBuilder

/-- **The room is bounded, and exact at its limits.** For all numbers of 64 bits, whatever counts
a store of documents reports, the room is the exact one cut off once. So it lies between the static
bytes and 68 times as many, and never gets smaller when one of the quantities gets greater. For an
envelope it is that of the true total length and the true number of goals, cut off once each, in
whatever order the documents come. -/
theorem Sizing.reserve_exact_at_limits :
    (∀ (s : Sizing) (static goals envelope : ByteCount),
      s.reserve static goals envelope =
          .clip (exactRoom static.toNat goals.toNat envelope.toNat s.goalOverhead.toNat) ∧
        static ≤ s.reserve static goals envelope ∧
        s.reserve static goals envelope ≤ .clip (68 * static.toNat)) ∧
    (∀ (s s' : Sizing) (static static' goals goals' envelope envelope' : ByteCount),
      static ≤ static' → goals ≤ goals' → envelope ≤ envelope' →
        s.goalOverhead ≤ s'.goalOverhead →
          s.reserve static goals envelope ≤ s'.reserve static' goals' envelope') ∧
    ∀ (builder : ResponseBuilder) (store : DocumentStore) (docs : List (String × Bytes)),
      builder.room store docs =
          builder.sizing.reserve (.clip ((docs.map (·.2.length)).sum + 17))
            (.clip (docs.map fun d => (store.goalCount d.1).toNat).sum)
            builder.sizing.envelopeOverhead ∧
        ∀ docs', docs.Perm docs' → builder.room store docs = builder.room store docs' := by
  refine ⟨?_, ?_, ?_⟩
  · intro s static goals envelope
    exact ⟨s.reserve_eq static goals envelope, s.le_reserve static goals envelope,
      s.reserve_le_clip static goals envelope⟩
  · intro s s' static static' goals goals' envelope envelope' hstatic hgoals henvelope hoverhead
    exact reserve_mono hstatic hgoals henvelope hoverhead
  · intro builder store docs
    exact ⟨builder.room_eq store docs, fun docs' h => builder.room_eq_of_perm store h⟩

/-- Counts and allowances as great as can be, for three bytes in two documents. -/
theorem Sizing.reserve_exact_at_limits_greatest :
    (Sizing.mk (.clip 0) (.clip ByteCount.maximum)).reserve 3 (.clip ByteCount.maximum) 0 ≤
        (Sizing.mk (.clip 0) (.clip ByteCount.maximum)).reserve 4 (.clip ByteCount.maximum) 0 ∧
      ResponseBuilder.room ⟨none, ⟨.clip ByteCount.maximum, .clip ByteCount.maximum⟩⟩
          ⟨fun _ => none, fun _ => none, fun _ => .clip ByteCount.maximum⟩
          [("a", Bytes.ofString "\x7b\x7d"), ("b", Bytes.ofString "!")] =
        ResponseBuilder.room ⟨none, ⟨.clip ByteCount.maximum, .clip ByteCount.maximum⟩⟩
          ⟨fun _ => none, fun _ => none, fun _ => .clip ByteCount.maximum⟩
          [("b", Bytes.ofString "!"), ("a", Bytes.ofString "\x7b\x7d")] :=
  ⟨reserve_exact_at_limits.2.1 _ _ _ _ _ _ _ _ (by decide) (by decide) (by decide) (by decide),
    (reserve_exact_at_limits.2.2 _ _ _).2 _ (List.Perm.swap _ _ _)⟩

end GoalProgress
