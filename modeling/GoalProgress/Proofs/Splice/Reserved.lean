import GoalProgress.Proofs.Progress.Suffix
import GoalProgress.Proofs.Splice.Buffer
import GoalProgress.Splice.Reserved

/-!
# The reserved room suffices

While a goal is written, its buffer never holds more than the document and the suffix, whose length
is limited. So the room that is reserved for both is enough at every moment, and the bytes of the
goal are never moved, in whatever amounts room is handed out.

## Main definitions

* `Splice.Fits`: steps that append bytes and need a given room for it.
-/
namespace GoalProgress

theorem Suffix.flatten_pieces (record : Option ProgressRecord) :
    (pieces record).flatten = ofRecord? record := by
  cases record with
  | none => exact List.append_nil _
  | some r => simp [pieces, ofRecord?, ofRecord]

namespace Splice

variable {a : Allocator}

/-- With room for `room` more bytes, the step appends `bs` and changes nothing else: the room stays
as it is, and nothing is moved. -/
def Fits (step : RoomM Unit) (bs : Bytes) (room : Nat) : Prop :=
  ∀ b : Buffer, b.bytes.length + room ≤ b.capacity →
    step.run b = ((), { b with bytes := b.bytes ++ bs })

/-! ## Steps -/

theorem Fits.mono {step : RoomM Unit} {bs : Bytes} {room room' : Nat} (h : Fits step bs room)
    (hle : room ≤ room') : Fits step bs room' :=
  fun b hb => h b (Nat.le_trans (Nat.add_le_add_left hle _) hb)

theorem fits_put (bs : Bytes) : Fits (put a bs) bs bs.length := by
  intro b hb
  have happend : b.append a bs = { b with bytes := b.bytes ++ bs } :=
    if_pos (List.length_append ▸ hb)
  exact congrArg (Prod.mk ()) happend

/-- The second step finds the bytes of the first one in the buffer. -/
theorem Fits.bind {step next : RoomM Unit} {bs cs : Bytes} {room room' : Nat}
    (hstep : Fits step bs room) (hnext : Fits next cs room') :
    Fits (step >>= fun _ => next) (bs ++ cs) (max room (bs.length + room')) := by
  intro b hb
  have hsecond : (b.bytes ++ bs).length + room' ≤ b.capacity := by
    rw [List.length_append]
    omega
  rw [run_bind_of_run (hstep b (by omega)), hnext _ hsecond, List.append_assoc]

/-- Pieces need the room of all of them. -/
theorem fits_forM_put (pieces : List Bytes) :
    Fits (pieces.forM (put a)) pieces.flatten pieces.flatten.length := by
  induction pieces with
  | nil =>
    intro b _
    rw [List.flatten_nil, List.append_nil]
    rfl
  | cons piece pieces ih =>
    refine ((fits_put piece).bind ih).mono ?_
    rw [List.flatten_cons, List.length_append]
    omega

/-! ## A goal -/

theorem fits_putSuffix (record : Option ProgressRecord) :
    Fits (putSuffix a record) (Suffix.ofRecord? record) (Suffix.ofRecord? record).length := by
  rw [← Suffix.flatten_pieces]
  exact fits_forM_put _

/-- The comma needs room as well before it is removed. -/
theorem fits_putSuffixAfter (body : Bytes) (record : Option ProgressRecord) :
    Fits (putSuffixAfter a body record) (suffixAfter body record)
      (Suffix.ofRecord? record).length := by
  intro b hb
  have hget : (get : RoomM Buffer).run b = (b, b) := rfl
  rw [putSuffixAfter, run_bind_of_run hget, run_bind_of_run (fits_putSuffix record b hb),
    suffixAfter]
  cases isEmptyObject body with
  | false => rfl
  | true => exact congrArg (fun bytes => ((), { b with bytes })) (eraseIdx_length_append _ _)

theorem length_suffixAfter_le (body : Bytes) (record : Option ProgressRecord) :
    (suffixAfter body record).length ≤ (Suffix.ofRecord? record).length := by
  rw [suffixAfter, List.length_drop]
  exact Nat.sub_le _ _

theorem length_take_add_length_drop (bs : Bytes) (i : Nat) :
    (bs.take i).length + (bs.drop i).length = bs.length := by
  rw [← List.length_append, List.take_append_drop]

/-- **A goal needs the room of its document and of its suffix.** -/
theorem fits_putGoal (doc : Bytes) (record : Option ProgressRecord) :
    Fits (putGoal a doc record) (goal doc record)
      (doc.length + (Suffix.ofRecord? record).length) := by
  rw [putGoal, goal]
  cases doc.lastByte? Byte.closeBrace with
  | none => exact (fits_put doc).mono (Nat.le_add_right _ _)
  | some i =>
    have hsuffix := length_suffixAfter_le (doc.take i) record
    have hparts := length_take_add_length_drop doc i
    simp only [List.append_assoc]
    refine ((fits_put _).bind ((fits_putSuffixAfter _ record).bind (fits_put _))).mono ?_
    omega

theorem length_goal_le (doc : Bytes) (record : Option ProgressRecord) :
    (goal doc record).length ≤ doc.length + (Suffix.ofRecord? record).length := by
  rw [goal]
  cases doc.lastByte? Byte.closeBrace with
  | none => exact Nat.le_add_right _ _
  | some i =>
    have hsuffix := length_suffixAfter_le (doc.take i) record
    have hparts := length_take_add_length_drop doc i
    simp only [List.length_append]
    omega

/-- An empty buffer with enough room takes the bytes of a step without being moved. -/
theorem Fits.run_withRoom {step : RoomM Unit} {bs : Bytes} {room wanted : Nat}
    (h : Fits step bs room) (hroom : room ≤ wanted) :
    (step.run (.withRoom a wanted)).2 = ⟨bs, wanted + a.spare wanted, 0⟩ := by
  have hfits : (Buffer.withRoom a wanted).bytes.length + room ≤
      (Buffer.withRoom a wanted).capacity := by
    simp only [Buffer.withRoom, List.length_nil]
    omega
  rw [h _ hfits]
  rfl

/-- **The room that is reserved for a suffix suffices.** No suffix has more than 128 bytes, whatever
the number, the status and the two timestamps are, and no goal is longer than its document by more
than that. A suffix and a goal that are written into buffers with just this room are written as they
are, and the buffers end with the room that they had at the beginning, without having been moved. -/
theorem reserved_room_suffices (record : Option ProgressRecord) :
    (Suffix.ofRecord? record).length ≤ 128 ∧
      (∀ a : Allocator, reservedSuffix a record =
        ⟨Suffix.ofRecord? record, Suffix.maxLength + a.spare Suffix.maxLength, 0⟩) ∧
      ∀ doc : Bytes, (goal doc record).length ≤ doc.length + 128 ∧
        ∀ a : Allocator, reservedGoal a doc record =
          ⟨goal doc record, doc.length + Suffix.maxLength +
            a.spare (doc.length + Suffix.maxLength), 0⟩ := by
  have hsuffix := Suffix.length_ofRecord?_le record
  refine ⟨hsuffix, fun a => (fits_putSuffix record).run_withRoom hsuffix, fun doc => ⟨?_, ?_⟩⟩
  · exact Nat.le_trans (length_goal_le doc record) (Nat.add_le_add_left hsuffix _)
  · intro a
    exact (fits_putGoal doc record).run_withRoom (Nat.add_le_add_left hsuffix _)

/-- The greatest length of a suffix is nearly what is reserved for it. -/
example :
    (Suffix.ofRecord? (some {
      goalId := ""
      progress := Int32.minValue
      completedAt := some ⟨⟨⟨DateFields.firstYear, 1, 1⟩, by decide⟩, 0, 0, 0⟩
      claimedAt := some ⟨⟨⟨DateFields.lastYear, 12, 31⟩, by decide⟩, 1439, 60, 0⟩ })).length =
      124 := by
  decide +kernel

end Splice

end GoalProgress
