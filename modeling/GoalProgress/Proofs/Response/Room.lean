import GoalProgress.Proofs.Cache.Reload
import GoalProgress.Proofs.Definition.RoundTrip
import GoalProgress.Proofs.Response.Definitions
import GoalProgress.Proofs.Response.Sizing
import GoalProgress.Proofs.Splice.Length

/-!
# The room for a response suffices

The room that the default allowances reserve covers the static bytes, every suffix, and the commas
between challenges, which are not counted themselves: there is enough left over for them as long as
there are few challenges or each has a goal.
-/
namespace GoalProgress

open Json

namespace Sizing

theorem toNat_goalOverhead_default : default.goalOverhead.toNat = 150 := rfl

/-- What fits into the allowances for the true numbers of static bytes and goals fits into the room,
as far as 64 bits can count it. -/
theorem min_le_reserve {length static goals : Nat} (envelope : ByteCount)
    (hgoals : 2 * goals ≤ static) (hwanted : length ≤ static + envelope.toNat + 150 * goals)
    (hceiling : length ≤ 4 * static + 128 * goals) :
    min length ByteCount.maximum ≤
      (default.reserve (.clip static) (.clip goals) envelope).toNat := by
  have hmaximum : ByteCount.maximum = 18446744073709551615 := rfl
  rw [reserve_eq, ByteCount.toNat_clip, ByteCount.toNat_clip, ByteCount.toNat_clip, exactRoom,
    hmaximum, toNat_goalOverhead_default]
  omega

/-- The room is not more than the allowances for the true numbers. -/
theorem reserve_le (static goals : Nat) (envelope : ByteCount) :
    (default.reserve (.clip static) (.clip goals) envelope).toNat ≤
      static + envelope.toNat + 150 * goals := by
  rw [reserve_eq, ByteCount.toNat_clip, ByteCount.toNat_clip, ByteCount.toNat_clip, exactRoom,
    toNat_goalOverhead_default]
  omega

end Sizing

/-! ## Room after loading -/

namespace Challenge

/-- Every goal takes at least two bytes of the documents, and so does a challenge without goals. -/
theorem two_mul_sum_goals_le (chosen : List Challenge) :
    2 * (chosen.map fun c => c.goals.length).sum + 2 * chosen.length ≤
      (chosen.map fun c => c.print.length).sum := by
  calc 2 * (chosen.map fun c => c.goals.length).sum + 2 * chosen.length
      = (chosen.map fun c => 2 * c.goals.length + 2).sum := by
        rw [List.sum_map_add, List.sum_map_mul_left, List.map_const', List.sum_const_nat,
          Nat.mul_comm 2 chosen.length]
    _ ≤ (chosen.map fun c => c.print.length).sum :=
        List.sum_le_sum fun c _ => c.two_mul_goals_le

theorem sum_length_spliced_le (chosen : List Challenge) (lookup : Lookup) :
    (chosen.map fun c => (c.spliced lookup).length).sum ≤
      (chosen.map fun c => c.print.length).sum +
        Suffix.maxLength * (chosen.map fun c => c.goals.length).sum := by
  calc (chosen.map fun c => (c.spliced lookup).length).sum
      ≤ (chosen.map fun c => c.print.length + Suffix.maxLength * c.goals.length).sum :=
        List.sum_le_sum fun c _ => c.length_spliced_le lookup
    _ = _ := by rw [List.sum_map_add, List.sum_map_mul_left]

theorem sum_length_print_le (chosen : List Challenge) (lookup : Lookup) :
    (chosen.map fun c => c.print.length).sum ≤
      (chosen.map fun c => (c.spliced lookup).length).sum :=
  List.sum_le_sum fun c _ => c.length_print_le_length_spliced lookup

theorem length_le_sum_goals {chosen : List Challenge} (h : ∀ c ∈ chosen, 0 < c.goals.length) :
    chosen.length ≤ (chosen.map fun c => c.goals.length).sum := by
  have hone := List.length_le_sum_of_one_le (chosen.map fun c => c.goals.length)
    (List.forall_mem_map.2 h)
  rwa [List.length_map] at hone

end Challenge

namespace Cache

variable (cache : Cache) {cs : List Challenge} (sizing : Sizing)

theorem exists_last {id : String} (h : id ∈ cs.map (·.id)) :
    ∃ c : Challenge, id = c.id ∧ lastWith (·.id) c.id cs = some c := by
  cases hlast : lastWith (·.id) id cs with
  | none => exact absurd h (lastWith_eq_none_iff.1 hlast)
  | some c =>
    obtain ⟨-, rfl⟩ := lastWith_eq_some hlast
    exact ⟨c, rfl, hlast⟩

/-- Ids of definitions lead to the last definitions with these ids. -/
theorem exists_chosen {ids : List String} (h : ∀ id ∈ ids, id ∈ cs.map (·.id)) :
    ∃ chosen : List Challenge, ids = chosen.map (·.id) ∧
      ∀ c ∈ chosen, lastWith (·.id) c.id cs = some c := by
  induction ids with
  | nil => exact ⟨[], rfl, nofun⟩
  | cons id ids ih =>
    rw [List.forall_mem_cons] at h
    obtain ⟨c, rfl, hc⟩ := exists_last h.1
    obtain ⟨chosen, rfl, hchosen⟩ := ih h.2
    exact ⟨c :: chosen, rfl, List.forall_mem_cons.2 ⟨hc, hchosen⟩⟩

theorem goalCount_loaded_of_last {c : Challenge} (h : lastWith (·.id) c.id cs = some c) :
    (cache.loaded cs).goalCount c.id = c.goals.length := by
  rw [goalCount_loaded, h]
  rfl

theorem document_loaded_of_last {c : Challenge} (h : lastWith (·.id) c.id cs = some c) :
    ResponseBuilder.document (cache.loaded cs).store c.id = .ok c.print := by
  have hdoc : (cache.loaded cs).store.challenge? c.id = _ := cache.challengeDocument?_loaded cs c.id
  rw [ResponseBuilder.document, hdoc, h]
  rfl

theorem challengeRoom_loaded_of_last {c : Challenge} (h : lastWith (·.id) c.id cs = some c) :
    ((cache.loaded cs).builder sizing).challengeRoom c.id =
      .ok (sizing.reserve (.clip c.print.length) (.clip c.goals.length) 0) := by
  have hcount : (cache.loaded cs).store.goalCount c.id = .clip c.goals.length :=
    congrArg ByteCount.clip (cache.goalCount_loaded_of_last h)
  simp only [ResponseBuilder.challengeRoom, ResponseBuilder.store, builder, bind, Except.bind,
    cache.document_loaded_of_last h, hcount, pure, Except.pure]

variable {chosen : List Challenge} (h : ∀ c ∈ chosen, lastWith (·.id) c.id cs = some c)
include h

theorem map_goalCount_loaded_of_last :
    chosen.map (fun c => (cache.loaded cs).goalCount c.id) = chosen.map fun c => c.goals.length :=
  List.map_congr_left fun c hc => cache.goalCount_loaded_of_last (h c hc)

/-- The room for challenges is reserved for the true numbers of bytes and goals, as far as 64 bits
can count them. -/
theorem room_loaded_of_last :
    ((cache.loaded cs).builder sizing).room (cache.loaded cs).store
        (chosen.map fun c => (c.id, c.print)) =
      sizing.reserve (.clip ((chosen.map fun c => c.print.length).sum + 17))
        (.clip (chosen.map fun c => c.goals.length).sum) sizing.envelopeOverhead := by
  have hzero : (0 : ByteCount) = .clip 0 := rfl
  simp only [ResponseBuilder.room, builder, store, List.foldl_map, hzero,
    ByteCount.foldl_plus_clip, ByteCount.plus_clip, ResponseBuilder.length_envelope,
    cache.map_goalCount_loaded_of_last h, Nat.zero_add]

theorem challengesRoom_loaded_of_last (hne : chosen ≠ []) :
    ((cache.loaded cs).builder sizing).challengesRoom (chosen.map (·.id)) =
      .ok (sizing.reserve (.clip ((chosen.map fun c => c.print.length).sum + 17))
        (.clip (chosen.map fun c => c.goals.length).sum) sizing.envelopeOverhead) := by
  have hdocs (chosen : List Challenge) (h : ∀ c ∈ chosen, lastWith (·.id) c.id cs = some c) :
      (chosen.map (·.id)).mapM (fun id =>
        (ResponseBuilder.document (cache.loaded cs).store id).map (id, ·)) =
          .ok (chosen.map fun c => (c.id, c.print)) := by
    induction chosen with
    | nil => rfl
    | cons c chosen ih =>
      rw [List.forall_mem_cons] at h
      rw [List.map_cons, List.mapM_cons, cache.document_loaded_of_last h.1, ih h.2]
      rfl
  have hstore : ((cache.loaded cs).builder sizing).store = .ok (cache.loaded cs).store := rfl
  have hempty : ¬ (chosen.map (·.id)).isEmpty = true := by simpa using hne
  rw [ResponseBuilder.challengesRoom, hstore]
  simp only [bind, Except.bind]
  rw [if_neg hempty, hdocs chosen h, ← cache.room_loaded_of_last sizing h]
  rfl

/-- Nothing is reserved for the commas between challenges: they fit into the allowance for the
envelope, or into what the suffixes of the goals leave of theirs. -/
theorem commas_fit_of_last
    (hfew : chosen.length ≤ 101 ∨ ∀ c ∈ chosen, 0 < (cache.loaded cs).goalCount c.id) :
    chosen.length ≤ 101 ∨ chosen.length ≤ (chosen.map fun c => c.goals.length).sum := by
  refine hfew.imp_right fun hgoals => Challenge.length_le_sum_goals fun c hc => ?_
  rw [← cache.goalCount_loaded_of_last (h c hc)]
  exact hgoals c hc

theorem challenges_fit_of_last (lookup : Lookup) (hne : chosen ≠ [])
    (hfew : chosen.length ≤ 101 ∨ ∀ c ∈ chosen, 0 < (cache.loaded cs).goalCount c.id) :
    ∃ body room,
      ((cache.loaded cs).builder .default).challenges (chosen.map (·.id)) lookup = .ok body ∧
      ((cache.loaded cs).builder .default).challengesRoom (chosen.map (·.id)) = .ok room ∧
      min body.length ByteCount.maximum ≤ room.toNat ∧
      room.toNat ≤ body.length + 100 + 150 * (chosen.map fun c => c.goals.length).sum := by
  refine ⟨_, _, cache.challenges_loaded_of_last .default h lookup,
    cache.challengesRoom_loaded_of_last .default h hne, ?_⟩
  have hshortest := Challenge.sum_length_print_le chosen lookup
  have hlongest := Challenge.sum_length_spliced_le chosen lookup
  have hgoals := Challenge.two_mul_sum_goals_le chosen
  have hcommas := cache.commas_fit_of_last h hfew
  have henvelope := ResponseBuilder.length_envelope
  have hallowed : Sizing.default.envelopeOverhead.toNat = 100 := rfl
  have hroom := Sizing.reserve_le ((chosen.map fun c => c.print.length).sum + 17)
    (chosen.map fun c => c.goals.length).sum Sizing.default.envelopeOverhead
  rw [Suffix.maxLength] at hlongest
  simp only [List.length_append, length_joined, List.length_map, List.map_map, Function.comp_def]
  exact ⟨Sizing.min_le_reserve _ (by omega) (by omega) (by omega), by omega⟩

omit h

theorem challenge_fits_of_last {c : Challenge} (h : lastWith (·.id) c.id cs = some c)
    (lookup : Lookup) :
    ∃ body room, ((cache.loaded cs).builder .default).challenge c.id lookup = .ok body ∧
      ((cache.loaded cs).builder .default).challengeRoom c.id = .ok room ∧
      min body.length ByteCount.maximum ≤ room.toNat ∧
      room.toNat ≤ body.length + 150 * c.goals.length := by
  have hbody : ((cache.loaded cs).builder .default).challenge c.id lookup =
      .ok (c.spliced lookup) := by
    rw [challenge_loaded, showLast, h]
  refine ⟨_, _, hbody, cache.challengeRoom_loaded_of_last .default h, ?_⟩
  have hshortest := c.length_print_le_length_spliced lookup
  have hlongest := c.length_spliced_le lookup
  have hgoals := c.two_mul_goals_le
  have hroom := Sizing.reserve_le c.print.length c.goals.length 0
  have hzero : (0 : ByteCount).toNat = 0 := rfl
  rw [Suffix.maxLength] at hlongest
  exact ⟨Sizing.min_le_reserve 0 (by omega) (by omega) (by omega), by omega⟩

/-- **The default room suffices.** Once definitions are loaded, a response to known ids is no longer
than the room that the default allowances reserve for it, whatever is found in the lookup: a single
challenge, and several challenges in an envelope if they are at most 101 or have a goal each. All
numbers are of 64 bits, so that a length beyond them counts as the greatest there is. And the room
is longer than the response by the allowances at most. -/
theorem room_suffices (cs : List Challenge) :
    ∃ warm, cache.warmUp cs = .ok warm ∧
      (∀ (ids : List String) (lookup : Lookup), ids ≠ [] → (∀ id ∈ ids, id ∈ cs.map (·.id)) →
        (ids.length ≤ 101 ∨ ∀ id ∈ ids, 0 < warm.goalCount id) →
        ∃ body room, (warm.builder .default).challenges ids lookup = .ok body ∧
          (warm.builder .default).challengesRoom ids = .ok room ∧
          min body.length ByteCount.maximum ≤ room.toNat ∧
          room.toNat ≤ body.length + 100 + 150 * (ids.map warm.goalCount).sum) ∧
      ∀ (id : String) (lookup : Lookup), id ∈ cs.map (·.id) →
        ∃ body room, (warm.builder .default).challenge id lookup = .ok body ∧
          (warm.builder .default).challengeRoom id = .ok room ∧
          min body.length ByteCount.maximum ≤ room.toNat ∧
          room.toNat ≤ body.length + 150 * warm.goalCount id := by
  refine ⟨cache.loaded cs, cache.warmUp_eq cs, ?_, ?_⟩
  · intro ids lookup hne hknown hfew
    obtain ⟨chosen, rfl, hlast⟩ := exists_chosen hknown
    have hcounts : (chosen.map (·.id)).map (cache.loaded cs).goalCount =
        chosen.map fun c => c.goals.length := by
      rw [List.map_map]
      exact cache.map_goalCount_loaded_of_last hlast
    rw [List.length_map, List.forall_mem_map] at hfew
    rw [hcounts]
    exact cache.challenges_fit_of_last hlast lookup (by simpa using hne) hfew
  · intro id lookup hknown
    obtain ⟨c, rfl, hlast⟩ := exists_last hknown
    rw [cache.goalCount_loaded_of_last hlast]
    exact cache.challenge_fits_of_last hlast lookup

/-- Two challenges, one without goals and one that is asked for twice. -/
theorem room_suffices_awkward :
    ∃ warm, empty.warmUp Definition.awkward = .ok warm ∧
      (∃ body room, (warm.builder .default).challenges ["\\", "", "\\"]
            (.ofList [{ goalId := "\"", progress := Int32.minValue }]) = .ok body ∧
          (warm.builder .default).challengesRoom ["\\", "", "\\"] = .ok room ∧
          min body.length ByteCount.maximum ≤ room.toNat ∧
          room.toNat ≤ body.length + 100 + 150 * (["\\", "", "\\"].map warm.goalCount).sum) ∧
      ∃ body room, (warm.builder .default).challenge "" .empty = .ok body ∧
          (warm.builder .default).challengeRoom "" = .ok room ∧
          min body.length ByteCount.maximum ≤ room.toNat ∧
          room.toNat ≤ body.length + 150 * warm.goalCount "" := by
  obtain ⟨warm, hwarm, hchallenges, hchallenge⟩ := empty.room_suffices Definition.awkward
  exact ⟨warm, hwarm, hchallenges _ _ (by decide) (by decide) (.inl (by decide)),
    hchallenge _ _ (by decide)⟩

end Cache

end GoalProgress
