/-
This file proves that a run that sorts by a comparator compares nothing but what
remains of the images, once duplicates are dropped and a page is cut.

Sorting comes last. The comparator never sees what the limit or the page cuts off
or what is dropped as a duplicate, so it may fail there, or contradict itself. What
it does among the remaining elements decides all that it adds to the run.
-/

import StagedQuery.Proofs.Run.Gathering
import StagedQuery.Proofs.Run.Pinning

namespace StagedQuery

variable {α β : Type} [BEq β] [Ord β]

namespace Query

/-- A run in which the comparator sorts the given elements and has no other part. It is called on
two of them at a time, and how it compares others cannot be seen: the run succeeds if it orders
these, and comes to the same with any comparator that does the same with them. -/
structure ComparesOnly (query : Query α β) (comparator : Comparator β) (mapper : Mapper α β)
    (extent : Extent) (remaining : List β) (evaluation : Evaluation (Found β)) : Prop where
  mem_of_compared : ∀ pair ∈ comparator.comparisonsOf remaining,
    pair.1 ∈ remaining ∧ pair.2 ∈ remaining
  nil_of_few : remaining.length < 2 → comparator.comparisonsOf remaining = []
  trace_eq : evaluation.outcome.trace = (query.projected mapper).trace ++
    (comparator.comparisonsOf remaining).flatMap fun pair =>
      (comparator.compare pair.1 pair.2).trace
  succeeds : comparator.IsTotalPreorderOn remaining → evaluation.outcome.result =
    .ok (extent.answer (mergeSorted comparator.ordering remaining))
  result_congr : ∀ other : Comparator β,
    (∀ left ∈ remaining, ∀ right ∈ remaining,
      (other.compare left right).result = (comparator.compare left right).result) →
    ∃ otherEvaluation,
      (query.pinnedTo other).select? ⟨.mapped mapper, extent⟩ = some otherEvaluation ∧
        otherEvaluation.outcome.result = evaluation.outcome.result
  congr : ∀ other : Comparator β,
    (∀ left ∈ remaining, ∀ right ∈ remaining,
      other.compare left right = comparator.compare left right) →
    (query.pinnedTo other).select? ⟨.mapped mapper, extent⟩ = some evaluation
  /-- A comparator that fails on every two elements fails the run. It need only fail when it
  compares a later element with an earlier one. -/
  fails : 2 ≤ remaining.length →
    (remaining.Pairwise fun earlier later =>
      ∃ fault, (comparator.compare later earlier).result = .error fault) →
    ∃ left ∈ remaining, ∃ right ∈ remaining, ∃ fault,
      (comparator.compare left right).result = .error fault ∧
        evaluation.outcome.result = .error fault

variable {query : Query α β} {comparator : Comparator β} {mapper : Mapper α β} {extent : Extent}
  {images : List β} {evaluation : Evaluation (Found β)}

/-- Once the images are there, the comparator sorts what remains of them. -/
theorem outcome_of_byComparator (sorts : query.stage.sorting = .byComparator comparator)
    (gathered : (query.projected mapper).result = .ok images)
    (selected : query.select? ⟨.mapped mapper, extent⟩ = some evaluation) :
    evaluation.outcome =
      (extent.answer <$> comparator.sort (query.remaining extent.paging images)).behind
        (query.projected mapper).trace := by
  rw [Phase.outcome_of_select selected]
  show extent.answer <$> (query.projected mapper >>= _) = _
  rw [Outcome.bind_of_ok gathered, sorts]
  exact Outcome.ext (by simp [Sorting.apply]) (by simp [Sorting.apply])

/-- A query that sorts by a comparator, and whose images are gathered without fail, compares only
what remains of them. -/
theorem select_compares_only (sorts : query.stage.sorting = .byComparator comparator)
    (gathered : (query.projected mapper).result = .ok images) :
    ∃ evaluation, query.select? ⟨.mapped mapper, extent⟩ = some evaluation ∧
      query.ComparesOnly comparator mapper extent (query.remaining extent.paging images)
        evaluation := by
  have selected := query.select?_of_mapper mapper extent
  have outcome := outcome_of_byComparator sorts gathered selected
  have sorted : query.stage.sorting ≠ .unsorted := by
    rw [sorts]
    nofun
  refine ⟨_, selected, ?_⟩
  constructor
  case mem_of_compared => exact Comparator.mem_of_mem_comparisonsOf
  case nil_of_few => exact Comparator.comparisonsOf_eq_nil
  case trace_eq =>
    rw [outcome, Outcome.trace_behind, Outcome.trace_map, Comparator.trace_sort]
  case succeeds =>
    intro lawful
    rw [outcome, Outcome.result_behind, Outcome.result_map,
      Comparator.result_sort_of_isTotalPreorderOn lawful]
    rfl
  case result_congr =>
    intro other agree
    have otherSelected := (query.pinnedTo other).select?_of_mapper mapper extent
    have otherSorts : (query.pinnedTo other).stage.sorting = .byComparator other :=
      Stage.sorting_pinnedTo other sorted
    have otherGathered : ((query.pinnedTo other).projected mapper).result = .ok images := gathered
    have otherOutcome := outcome_of_byComparator otherSorts otherGathered otherSelected
    refine ⟨_, otherSelected, ?_⟩
    rw [otherOutcome, outcome, Outcome.result_behind, Outcome.result_behind, Outcome.result_map,
      Outcome.result_map, remaining_pinnedTo, (Comparator.result_sort_congr agree).2]
  case congr =>
    intro other agree
    rw [select?_pinnedTo mapper sorted fun others otherwise => ?_]
    · exact selected
    · obtain rfl : images = others := Except.ok.inj (gathered.symm.trans otherwise)
      rw [sorts]
      exact Comparator.sort_congr agree
  case fails =>
    intro several fails
    obtain ⟨left, leftMember, right, rightMember, fault, failed, result⟩ :=
      Comparator.exists_fault_of_sort several fails
    refine ⟨left, leftMember, right, rightMember, fault, failed, ?_⟩
    rw [outcome, Outcome.result_behind, Outcome.result_map, result]
    rfl

/-- A comparator that fails on every number above three sorts a page of lesser ones, though a
greater number is among the images. -/
theorem select_compares_only_of_lesser_numbers :
    let isGreater : Value → Bool := fun element => compare element (.int 3) == .gt
    let comparator : Comparator Value := .of fun left right =>
      if isGreater left || isGreater right then Outcome.fail .overflow
      else pure (compare left right)
    let source : List Value := [.int 3, .int 1, .int 3, .int 2, .int 9]
    let paging : Paging := ⟨1, 3, by decide, by decide⟩
    ∃ query evaluation,
      (ofList source).refineAll? [.orderBy comparator, .distinct] = some query ∧
      query.select? ⟨.mapped .identity, .page paging⟩ = some evaluation ∧
      evaluation.outcome.result =
        .ok (.elements (mergeSorted comparator.ordering [.int 3, .int 1, .int 2])) := by
  intro isGreater comparator source paging
  let query : Query Value :=
    ⟨source, .acceptAll, none, .special (.byComparator comparator) .distinct⟩
  have gathered : (query.projected Mapper.identity).result = .ok source := rfl
  obtain ⟨evaluation, selected, comparesOnly⟩ :=
    @select_compares_only Value Value _ _ query comparator Mapper.identity (.page paging) source rfl
      gathered
  have remaining : query.remaining (some paging) source = [.int 3, .int 1, .int 2] := by
    show paging.slice (Deduplication.distinct.apply source) = _
    rw [Paging.slice, paging.offset_eq]
    rfl
  have lawful : comparator.IsTotalPreorderOn [.int 3, .int 1, .int 2] := by
    have lesser : ∀ element ∈ [Value.int 3, .int 1, .int 2], isGreater element = false := by
      decide
    have answers : ∀ left ∈ [Value.int 3, .int 1, .int 2],
        ∀ right ∈ [Value.int 3, .int 1, .int 2],
          (comparator.compare left right).result = .ok (compare left right) := by
      intro left leftMember right rightMember
      show (if isGreater left || isGreater right then Outcome.fail .overflow
        else pure (compare left right)).result = _
      rw [lesser left leftMember, lesser right rightMember]
      rfl
    exact Comparator.isTotalPreorderOn_of_answers answers
  refine ⟨query, evaluation, rfl, selected, ?_⟩
  exact remaining ▸ comparesOnly.succeeds (remaining ▸ lawful)

end Query

end StagedQuery
