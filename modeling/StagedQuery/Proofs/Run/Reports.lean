/-
This file proves that the reports of a run are true.

A run reports twice if neither a test nor the projection fails, and what the sort does
comes too late to change that. The numbers of the second report are taken at two places
of the run: one behind the projections, the other behind duplicates and the page. The
first is counted on the calls and on the source. The second is what the answer is long,
since sorting, by whatever comparator, only rearranges, if it succeeds at all.
-/

import StagedQuery.Proofs.Run.Pages

namespace StagedQuery

variable {α β : Type}

/-! ### Counting -/

/-- A number, cut down to a limit. -/
def capped (limit : Option UInt64) (count : Nat) : Nat :=
  limit.elim count fun most => min most.toNat count

/-- One more is counted as long as the limit is not reached. -/
theorem capped_succ (limit : Option UInt64) (count : Nat) :
    capped limit (count + 1) =
      capped limit count + (limit.all fun most => count < most.toNat).toNat := by
  cases limit with
  | none => rfl
  | some most =>
    show min most.toNat (count + 1) = min most.toNat count + (decide (count < most.toNat)).toNat
    by_cases more : count < most.toNat
    · rw [decide_eq_true more, Bool.toNat_true]
      omega
    · rw [decide_eq_false more, Bool.toNat_false]
      omega

namespace Phase

/-- Whether a call is one of the projection. -/
def Call.isProjection : Call α → Bool
  | .test _ _ => false
  | .project _ _ => true

variable {phase : Phase α β}

theorem countP_turn (position : Nat) (element : α) :
    (phase.turn position element).countP Call.isProjection =
      (phase.hasRoom position && phase.predicate.accepts element).toNat := by
  unfold turn
  by_cases room : phase.hasRoom position
  · by_cases accepts : phase.predicate.accepts element
    · rw [if_pos room, if_pos accepts, room, accepts]
      rfl
    · rw [if_pos room, if_neg accepts, room, Bool.eq_false_iff.mpr accepts]
      rfl
  · rw [if_neg room, Bool.eq_false_iff.mpr room]
    rfl

/-- In front of a place of the source, as many projections are planned as elements are accepted
under the limit. -/
theorem countP_turns {front rest : List α} (split : phase.source = front ++ rest) :
    (front.zipIdx.flatMap fun place => phase.turn place.2 place.1).countP Call.isProjection =
      capped phase.limit (front.countP phase.predicate.accepts) := by
  -- The room at a place depends on what is in front of it, so elements are added at the end.
  induction front using List.reverseRecOn generalizing rest with
  | nil => cases phase.limit <;> simp [capped]
  | append_singleton front last inductionHypothesis =>
    rw [List.append_assoc, List.singleton_append] at split
    have room : phase.hasRoom front.length =
        phase.limit.all fun most => front.countP phase.predicate.accepts < most.toNat := by
      rw [hasRoom, acceptedBefore_length split]
    rw [List.zipIdx_append, List.flatMap_append, List.countP_append, inductionHypothesis split,
      List.zipIdx_singleton, List.flatMap_singleton, Nat.zero_add, countP_turn, room,
      List.countP_append, List.countP_singleton]
    cases phase.predicate.accepts last with
    | false => simp
    | true => simp [capped_succ]

theorem upToFault_of_none {planned : List (Call α)}
    (succeed : ∀ call ∈ phase.upToFault planned, phase.fault? call = none) :
    phase.upToFault planned = planned := by
  induction planned with
  | nil => rfl
  | cons first rest inductionHypothesis =>
    obtain ⟨firstSucceeds, restSucceed⟩ := forall_mem_upToFault_cons.mp succeed
    rw [upToFault_cons_of_none firstSucceeds, inductionHypothesis restSucceed]

/-- If no call fails, the projection is called once for each accepted element under the limit. -/
theorem countP_calls (succeed : ∀ call ∈ phase.calls, phase.fault? call = none) :
    phase.calls.countP Call.isProjection =
      capped phase.limit (phase.source.countP phase.predicate.accepts) := by
  unfold calls at succeed ⊢
  rw [upToFault_of_none succeed]
  exact countP_turns (List.append_nil phase.source).symm

end Phase

/-! ### Runs and their reports -/

theorem Paging.length_slice_le (paging : Paging) (items : List α) :
    (paging.slice items).length ≤ items.length := by
  rw [length_slice]
  omega

namespace Query

/-- A run that succeeds gathers one image for each accepted element under the limit. -/
theorem length_of_projected {query : Query α β} {mapper : Mapper α β} {images : List β}
    (gathered : (query.projected mapper).result = .ok images) :
    images.length = capped query.limit (query.source.countP query.predicate.accepts) := by
  rw [Phase.length_of_gathered gathered, room]
  cases query.limit with
  | some most => rfl
  | none => exact Nat.min_eq_right List.countP_le_length

variable [BEq β] {query : Query α β}

theorem length_remaining_le (paging : Option Paging) (items : List β) :
    (query.remaining paging items).length ≤ items.length := by
  have kept := query.stage.deduplication.length_apply_le items
  unfold remaining
  cases paging with
  | none => exact kept
  | some paging => exact Nat.le_trans (paging.length_slice_le _) kept

variable [Ord β] {selection : Selection α β} {evaluation : Evaluation (Found β)}

theorem events_of_select (offered : query.select? selection = some evaluation) :
    evaluation.events =
      (query.evaluate selection.projection.mapper selection.extent.paging).events := by
  unfold select? at offered
  split at offered
  · cases offered
    rfl
  · nomatch offered

/-- The run of a selection that is answered has gathered images, and the answer is made from what
remains of them, in some order. -/
theorem exists_perm_of_answered (offered : query.select? selection = some evaluation)
    {images : List β}
    (gathered : (query.projected selection.projection.mapper).result = .ok images)
    {found : Found β} (answered : evaluation.outcome.result = .ok found) :
    ∃ items, found = selection.extent.answer items ∧
      items.Perm (query.remaining selection.extent.paging images) := by
  rw [Phase.outcome_of_select offered, Outcome.result_map, Outcome.bind_of_ok gathered,
    Outcome.result_behind] at answered
  cases sorted : (query.stage.sorting.apply
      (query.remaining selection.extent.paging images)).result with
  | error fault =>
    rw [sorted] at answered
    nomatch answered
  | ok items =>
    rw [sorted] at answered
    exact ⟨items, (Except.ok.inj answered).symm, Sorting.perm_of_apply sorted⟩

/-- What the two numbers of a run's second report are. -/
structure Counts (query : Query α β) (selection : Selection α β) (evaluation : Evaluation (Found β))
    (projected selected : Nat) : Prop where
  projected_eq_countP : projected =
    (query.phase selection.projection.mapper).calls.countP Phase.Call.isProjection
  projected_eq_capped : projected =
    capped query.limit (query.source.countP query.predicate.accepts)
  selected_eq : selected = (query.remaining selection.extent.paging
    (query.phase selection.projection.mapper).images).length
  length_eq : ∀ items, evaluation.outcome.result = .ok (.elements items) →
    items.length = selected
  isSome_iff : ∀ element, evaluation.outcome.result = .ok (.first element) →
    (element.isSome ↔ selected ≠ 0)
  selected_le : selected ≤ projected
  projected_le : projected ≤ query.source.length
  projected_le_limit : ∀ most, query.limit = some most → projected ≤ most.toNat
  selected_le_perPage : ∀ paging, selection.extent = .page paging →
    selected ≤ paging.perPage.toNat

theorem counts_of_select (offered : query.select? selection = some evaluation)
    (succeed : ∀ call ∈ (query.phase selection.projection.mapper).calls,
      (query.phase selection.projection.mapper).fault? call = none) :
    query.Counts selection evaluation
      (query.phase selection.projection.mapper).images.length
      (query.remaining selection.extent.paging
        (query.phase selection.projection.mapper).images).length := by
  have gathered := congrArg Outcome.result (Phase.projected_of_none succeed)
  have images := length_of_projected gathered
  constructor
  case projected_eq_countP =>
    rw [images, Phase.countP_calls succeed]
    rfl
  case projected_eq_capped => exact images
  case selected_eq => rfl
  case length_eq =>
    intro items answered
    obtain ⟨sorted, same, perm⟩ := exists_perm_of_answered offered gathered answered
    cases extent : selection.extent with
    | first =>
      rw [extent] at same
      nomatch same
    | all | page paging =>
      rw [extent] at same perm
      cases same
      exact perm.length_eq
  case isSome_iff =>
    intro element answered
    obtain ⟨sorted, same, perm⟩ := exists_perm_of_answered offered gathered answered
    cases extent : selection.extent with
    | first =>
      rw [extent] at same perm
      cases same
      rw [List.isSome_head?, ← perm.length_eq, ne_eq, ne_eq, List.length_eq_zero_iff]
    | all | page paging =>
      rw [extent] at same
      nomatch same
  case selected_le => exact length_remaining_le _ _
  case projected_le => exact Phase.length_images_le _
  case projected_le_limit =>
    intro most limited
    rw [images]
    show capped query.limit _ ≤ _
    rw [limited]
    exact Nat.min_le_left _ _
  case selected_le_perPage =>
    intro paging paged
    rw [paged]
    show (paging.slice _).length ≤ _
    rw [Paging.length_slice]
    exact Nat.min_le_left _ _

/-- A run reports that it starts, with the length of its source, its limit and the page it was asked
for. If a test or the projection fails, it reports nothing else. Otherwise it reports, whatever
becomes of the sort, how many elements it has projected and how many it has selected, and nothing
else: the first is the number of calls of the projection, the second the length of the answer. -/
theorem select_reports_truly (offered : query.select? selection = some evaluation) :
    let phase := query.phase selection.projection.mapper
    let started := Event.started query.source.length query.limit selection.extent.paging
    ((∃ call ∈ phase.calls, ∃ fault, (phase.outcome call).result = .error fault) →
        evaluation.events = [started]) ∧
      ((∀ call ∈ phase.calls, (phase.outcome call).result = .ok ()) →
        ∃ projected selected, evaluation.events = [started, .materialized projected selected] ∧
          query.Counts selection evaluation projected selected) := by
  intro phase started
  rw [events_of_select offered, evaluate]
  constructor
  · rintro ⟨call, made, fault, fails⟩
    rw [Phase.projected_of_fault made (Phase.fault?_eq_some_iff.mpr fails)]
  · intro succeed
    have unfailed : ∀ call ∈ phase.calls, phase.fault? call = none := fun call made =>
      Phase.fault?_eq_none_iff.mpr (succeed call made)
    rw [Phase.projected_of_none unfailed]
    exact ⟨_, _, rfl, counts_of_select offered unfailed⟩

/-- The comparator fails, but only behind the second report; of three numbers two are different.
The projection of the second run fails. -/
theorem select_reports_truly_of_failing_comparator :
    let isNumber : Value → Outcome Bool := fun element => pure (element matches .int _)
    let comparator : Comparator Value := .of fun _ _ => Outcome.fail .overflow
    let query : Query Value :=
      ⟨[.int 3, .null, .int 1, .int 3, .int 2], .of isNumber, some 3,
        .special (.byComparator comparator) .distinct⟩
    let failing : Mapper Value := fun earlierCalls element =>
      if earlierCalls = 1 then Outcome.fail .overflow else pure element
    (∃ evaluation, query.select? ⟨.mapped .identity, .all⟩ = some evaluation ∧
        evaluation.events = [.started 5 (some 3) none, .materialized 3 2] ∧
        evaluation.outcome.result = .error .overflow ∧
        query.Counts ⟨.mapped .identity, .all⟩ evaluation 3 2) ∧
      ∃ evaluation, query.select? ⟨.mapped failing, .first⟩ = some evaluation ∧
        evaluation.events = [.started 5 (some 3) none] := by
  intro isNumber comparator query failing
  constructor
  · have offered : query.select? ⟨.mapped .identity, .all⟩ = some _ := rfl
    have succeed : ∀ call ∈ (query.phase Mapper.identity).calls,
        ((query.phase Mapper.identity).outcome call).result = .ok () := by
      rintro (_ | _) _ <;> rfl
    obtain ⟨projected, selected, events, counts⟩ := (select_reports_truly offered).2 succeed
    have calculated : [_, Event.materialized projected selected] =
        [.started 5 (some 3) none, .materialized 3 2] := events.symm.trans rfl
    simp only [List.cons.injEq, Event.materialized.injEq] at calculated
    obtain ⟨-, ⟨rfl, rfl⟩, -⟩ := calculated
    exact ⟨_, offered, events, rfl, counts⟩
  · have offered : query.select? ⟨.mapped failing, .first⟩ = some _ := rfl
    have made : .project 2 (.int 1) ∈ (query.phase failing).calls := by
      have calls : (query.phase failing).calls =
          [.test 0 (.int 3), .project 0 (.int 3), .test 1 .null, .test 2 (.int 1),
            .project 2 (.int 1)] := rfl
      rw [calls]
      simp
    exact ⟨_, offered, (select_reports_truly offered).1 ⟨_, made, .overflow, rfl⟩⟩

end Query

end StagedQuery
