/-
This file proves how the run of an unsorted query depends on its limit.

A limit does nothing but end a run. Two runs under different limits make the same calls
until one of them ends, so what the one logs and gathers comes first in what the other
logs and gathers, and a call that fails before the one has ended fails both. What is done
with the images afterwards treats a front of them like the whole. Under a limit that the
accepted elements do not reach, a run goes through the whole source. If they reach it
exactly, the run still ends at the last of them, and what is behind it is not tested.
-/

import StagedQuery.Proofs.Construction.States
import StagedQuery.Proofs.Duplicates.Truncation
import StagedQuery.Proofs.Run.Gathering

namespace StagedQuery

variable {α β : Type}

/-! ### Computations that end early -/

namespace Outcome

/-- What a computation that may end early has in common with one that goes on. Its log comes first
in the log of the other; a fault in it is the fault of both, with the same log; and where the other
succeeds, it succeeds with a front of that result. -/
structure Precedes (isFront : β → β → Prop) (shorter longer : Outcome β) : Prop where
  prefix_trace : shorter.trace <+: longer.trace
  eq_of_error : ∀ fault, shorter.result = .error fault → longer = shorter
  exists_ok : ∀ value, longer.result = .ok value →
    ∃ front, shorter.result = .ok front ∧ isFront front value

namespace Precedes

variable {isFront : β → β → Prop}

/-- A computation that ends at once precedes every other, if its value is a front of all values. -/
theorem of_pure {front : β} (least : ∀ value, isFront front value) (longer : Outcome β) :
    Precedes isFront (pure front) longer where
  prefix_trace := List.nil_prefix
  eq_of_error _ failed := nomatch failed
  exists_ok value _ := ⟨front, rfl, least value⟩

/-- What both computations do first has no part in the comparison. -/
theorem bind {earlier : Outcome α} {first second : α → Outcome β}
    (precedes : ∀ value, earlier.result = .ok value →
      Precedes isFront (first value) (second value)) :
    Precedes isFront (earlier >>= first) (earlier >>= second) := by
  cases ended : earlier.result with
  | error fault =>
    rw [bind_of_error ended, bind_of_error ended]
    exact ⟨List.prefix_rfl, fun _ _ => rfl, nofun⟩
  | ok value =>
    obtain ⟨traces, errors, values⟩ := precedes value ended
    rw [bind_of_ok ended, bind_of_ok ended]
    constructor
    case prefix_trace => exact (List.prefix_append_right_inj earlier.trace).mpr traces
    case eq_of_error =>
      intro fault failed
      rw [errors fault failed]
    case exists_ok => exact values

theorem map {isFront' : α → α → Prop} {change : β → α} {shorter longer : Outcome β}
    (keeps : ∀ front value, isFront front value → isFront' (change front) (change value))
    (precedes : Precedes isFront shorter longer) :
    Precedes isFront' (change <$> shorter) (change <$> longer) := by
  constructor
  case prefix_trace =>
    rw [trace_map, trace_map]
    exact precedes.prefix_trace
  case eq_of_error =>
    intro fault failed
    rw [result_map] at failed
    cases ended : shorter.result with
    | ok value =>
      rw [ended] at failed
      nomatch failed
    | error other => rw [precedes.eq_of_error other ended]
  case exists_ok =>
    intro value succeeded
    rw [result_map] at succeeded
    cases ended : longer.result with
    | error fault =>
      rw [ended] at succeeded
      nomatch succeeded
    | ok source =>
      rw [ended] at succeeded
      obtain rfl : change source = value := Except.ok.inj succeeded
      obtain ⟨front, reached, isFront⟩ := precedes.exists_ok source ended
      refine ⟨change front, ?_, keeps front source isFront⟩
      rw [result_map, reached]
      rfl

end Precedes

end Outcome

/-! ### Gathering with less room -/

namespace Query

/-- With less room, gathering ends earlier. -/
theorem gather_precedes (predicate : Predicate α) (mapper : Mapper α β) {less more : Nat}
    (le : less ≤ more) (earlierCalls : Nat) (items : List α) :
    Outcome.Precedes (· <+: ·) (gather predicate mapper less earlierCalls items)
      (gather predicate mapper more earlierCalls items) := by
  induction items generalizing less more earlierCalls with
  | nil => exact .of_pure (fun _ => List.nil_prefix) _
  | cons element rest inductionHypothesis =>
    cases less with
    | zero =>
      rw [gather_zero]
      exact .of_pure (fun _ => List.nil_prefix) _
    | succ fewer =>
      obtain ⟨larger, rfl⟩ := Nat.exists_eq_add_of_le' (Nat.le_trans (Nat.succ_pos fewer) le)
      rw [gather, gather]
      refine .bind fun accepted _ => ?_
      cases accepted with
      | false => exact inductionHypothesis le earlierCalls
      | true =>
        simp only [if_true, bind_pure_comp]
        refine .bind fun image _ => ?_
        exact .map (fun front whole isFront => (List.prefix_cons_inj image).mpr isFront)
          (inductionHypothesis (Nat.le_of_succ_le_succ le) (earlierCalls + 1))

/-- Whether elements that may still come cannot use up the room. -/
def HasRoomFor (predicate : Predicate α) (room : Nat) (items : List α) : Prop :=
  items.length ≤ room ∨ items.countP predicate.accepts < room

/-- Room that cannot be used up may as well be any other such room. -/
theorem gather_congr_room {predicate : Predicate α} {first second : Nat} {items : List α}
    (firstRoom : HasRoomFor predicate first items) (secondRoom : HasRoomFor predicate second items)
    (mapper : Mapper α β) (earlierCalls : Nat) :
    gather predicate mapper first earlierCalls items =
      gather predicate mapper second earlierCalls items := by
  induction items generalizing first second earlierCalls with
  | nil => rfl
  | cons element rest inductionHypothesis =>
    have positive : ∀ {room}, HasRoomFor predicate room (element :: rest) →
        ∃ fewer, room = fewer + 1 := by
      rintro room (long | passing)
      · exact Nat.exists_eq_add_of_le' (Nat.le_trans (Nat.succ_pos rest.length) long)
      · exact Nat.exists_eq_add_of_le' (Nat.lt_of_le_of_lt (Nat.zero_le _) passing)
    obtain ⟨first, rfl⟩ := positive firstRoom
    obtain ⟨second, rfl⟩ := positive secondRoom
    rw [gather, gather]
    refine Outcome.bind_congr_of_ok fun accepted tested => ?_
    have accepts := Predicate.accepts_of_ok tested
    unfold HasRoomFor at firstRoom secondRoom inductionHypothesis
    rw [List.length_cons, List.countP_cons, accepts] at firstRoom secondRoom
    cases accepted with
    | false =>
      simp only [Bool.false_eq_true, if_false] at firstRoom secondRoom ⊢
      exact inductionHypothesis (by omega) (by omega) earlierCalls
    | true =>
      simp only [if_true] at firstRoom secondRoom ⊢
      have same := @inductionHypothesis first second (by omega) (by omega) (earlierCalls + 1)
      rw [same]

/-! ### Fronts of answers -/

theorem prefix_remaining [BEq β] (query : Query α β) (paging : Option Paging)
    {front images : List β} (isFront : front <+: images) :
    query.remaining paging front <+: query.remaining paging images := by
  have kept := query.stage.deduplication.prefix_apply isFront
  cases paging with
  | none => exact kept
  | some paging => exact (kept.drop paging.offset).take paging.perPage.toNat

end Query

/-- The elements of an answer. -/
def Found.items : Found β → List β
  | .elements items => items
  | .first element => element.toList

/-- Whether an answer is made of the first elements of another one. -/
def Found.IsFront (front found : Found β) : Prop := front.items <+: found.items

theorem Extent.answer_isFront (extent : Extent) {front items : List β} (isFront : front <+: items) :
    (extent.answer front).IsFront (extent.answer items) := by
  cases extent with
  | all | page paging => exact isFront
  | first =>
    obtain ⟨rest, rfl⟩ := isFront
    cases front with
    | nil => exact List.nil_prefix
    | cons first front => exact List.prefix_rfl

/-! ### Limits -/

namespace Query

/-- The same query under another limit, or without one. -/
def withLimit (query : Query α β) (limit : Option UInt64) : Query α β := { query with limit }

variable [BEq β] [Ord β]

/-- The call that limits a query leads to the runs under that limit. -/
theorem exists_refine?_limit (query : Query α β) (count : UInt64) :
    ∃ limited, query.refine? (.limit count) = some limited ∧ ∀ selection,
      limited.select? selection = (query.withLimit (some count)).select? selection :=
  ⟨_, Chain.refine?_of_isEnding query rfl, fun _ => rfl⟩

/-- Without sorting, a run ends when the images are there. -/
theorem outcome_of_unsorted {query : Query α β} (unsorted : query.stage.sorting = .unsorted)
    {selection : Selection α β} {evaluation : Evaluation (Found β)}
    (selected : query.select? selection = some evaluation) :
    evaluation.outcome =
      (fun images => selection.extent.answer (query.remaining selection.extent.paging images)) <$>
        query.projected selection.projection.mapper := by
  rw [Phase.outcome_of_select selected, unsorted]
  show selection.extent.answer <$>
    (query.projected selection.projection.mapper >>= fun images =>
      pure (query.remaining selection.extent.paging images)) = _
  rw [bind_pure_comp, Functor.map_map]

/-- How the runs of a query depend on its limit, where a run without a limit is one of them. Under a
lesser limit a run ends earlier. Under a limit that is at least the number of elements, or greater
than the number of those that are accepted, it is as without a limit; a test that fails counts as
none that accepts. -/
structure RunsUnderLimits (query : Query α β) (selection : Selection α β)
    (run : Option UInt64 → Evaluation (Found β)) : Prop where
  select?_withLimit : ∀ limit, (query.withLimit limit).select? selection = some (run limit)
  select?_self : query.select? selection = some (run query.limit)
  select?_limited : ∀ count, ∃ limited, query.refine? (.limit count) = some limited ∧
    limited.select? selection = some (run (some count))
  precedes : ∀ lesser greater, lesser ≤ greater →
    (run (some lesser)).outcome.Precedes Found.IsFront (run (some greater)).outcome
  eq_of_length_le : ∀ count : UInt64, query.source.length ≤ count.toNat →
    (run (some count)).outcome = (run none).outcome
  eq_of_accepted_lt : ∀ count : UInt64, query.source.countP query.predicate.accepts < count.toNat →
    (run (some count)).outcome = (run none).outcome
  eq_of_greatest : query.source.length ≤ Paging.greatestCount →
    (run (some (.ofNat Paging.greatestCount))).outcome = (run none).outcome

/-- The runs of an unsorted query under all limits are fronts of one another. -/
theorem select_under_limits {query : Query α β} (unsorted : query.stage.sorting = .unsorted)
    (selection : Selection α β) : ∃ run, query.RunsUnderLimits selection run := by
  have offered : query.stage.offers selection :=
    Stage.offers_of_not_isPinned (congrArg Sorting.isPinned unsorted) selection
  have selected : ∀ limit, (query.withLimit limit).select? selection = some _ :=
    fun _ => if_pos offered
  have outcome : ∀ limit, _ := fun limit =>
    @outcome_of_unsorted α β _ _ (query.withLimit limit) unsorted selection _ (selected limit)
  have roomy : ∀ count : UInt64, HasRoomFor query.predicate count.toNat query.source →
      (query.withLimit (some count)).projected selection.projection.mapper =
        (query.withLimit none).projected selection.projection.mapper :=
    fun count room => gather_congr_room room (.inl (Nat.le_refl _)) _ 0
  refine ⟨_, selected, selected query.limit, ?limited, ?precedes, ?long, ?passing, ?greatest⟩
  case limited =>
    intro count
    obtain ⟨limited, refined, same⟩ := query.exists_refine?_limit count
    exact ⟨limited, refined, (same selection).trans (selected (some count))⟩
  case precedes =>
    intro lesser greater le
    rw [outcome, outcome]
    refine .map (fun front images isFront => ?_) (gather_precedes query.predicate _ ?_ 0 _)
    · exact selection.extent.answer_isFront (query.prefix_remaining _ isFront)
    · exact UInt64.le_iff_toNat_le.mp le
  case long =>
    intro count long
    rw [outcome, outcome, roomy count (.inl long)]
    rfl
  case passing =>
    intro count passing
    rw [outcome, outcome, roomy count (.inr passing)]
    rfl
  case greatest =>
    intro countable
    rw [outcome, outcome, roomy (.ofNat Paging.greatestCount) (.inl countable)]
    rfl

/-- Two equal numbers are dropped to one under the limit of two. The third projection fails, so that
the limits of three and of four lead to the same fault. -/
theorem select_under_limits_of_failing_projection :
    let mapper : Mapper Value := fun earlierCalls element =>
      ⟨[⟨"project", [element]⟩], if earlierCalls = 2 then .error .overflow else .ok element⟩
    let query : Query Value :=
      ⟨[.int 1, .int 1, .int 2, .int 3], .acceptAll, none, .special .unsorted .distinct⟩
    let selection : Selection Value := ⟨.mapped mapper, .page ⟨1, 2, by decide, by decide⟩⟩
    ∃ run, query.stage.sorting = .unsorted ∧ query.RunsUnderLimits selection run ∧
      (run (some 2)).outcome.result = .ok (.elements [.int 1]) ∧
      (run (some 2)).outcome.trace <+: (run (some 3)).outcome.trace ∧
      (run (some 3)).outcome.result = .error .overflow ∧
      (run (some 4)).outcome = (run (some 3)).outcome ∧
      (run (some 5)).outcome = (run none).outcome := by
  intro mapper query selection
  obtain ⟨run, runs⟩ := @select_under_limits Value Value _ _ query rfl selection
  have two : _ = run (some 2) := Option.some.inj (runs.select?_withLimit (some 2))
  have three : _ = run (some 3) := Option.some.inj (runs.select?_withLimit (some 3))
  have failed : (run (some 3)).outcome.result = .error .overflow := by
    rw [← three]
    rfl
  refine ⟨run, rfl, runs, ?_, (runs.precedes 2 3 (by decide)).prefix_trace, failed, ?_, ?_⟩
  · rw [← two]
    rfl
  · exact (runs.precedes 3 4 (by decide)).eq_of_error _ failed
  · exact runs.eq_of_length_le 5 (by decide)

end Query

end StagedQuery
