/-
This file proves that a query sorts as well by the natural comparator as by the
natural order.

A comparator pins a query: the stages are others, the limit starts anew, and the
sort is carried out by other means. Whatever is called behind the ordering, the
query is nevertheless the one that is built with the natural order and pinned in
the end. So all that has to be compared is one sort with the other, on what
remains of the images.
-/

import StagedQuery.Proofs.Construction.States
import StagedQuery.Proofs.Order.Values
import StagedQuery.Proofs.Sorting.Comparisons

namespace StagedQuery

open Std

variable {α β : Type}

/-! ### Pinned queries -/

/-- Pins a strategy to a comparator, if it sorts at all. -/
def Sorting.pinnedTo (comparator : Comparator β) : Sorting β → Sorting β
  | .unsorted => .unsorted
  | .natural | .byComparator _ => .byComparator comparator

/-- The stage at which a query is that sorts by a comparator instead. -/
def Stage.pinnedTo (comparator : Comparator β) : Stage β → Stage β
  | .unfiltered => .unfiltered
  | .filtered => .filtered
  | .ordered | .orderedBy _ => .orderedBy comparator
  | .special sorting deduplication => .special (sorting.pinnedTo comparator) deduplication

/-- The query that sorts by a comparator instead. -/
def Query.pinnedTo (comparator : Comparator β) (query : Query α β) : Query α β :=
  { query with stage := query.stage.pinnedTo comparator }

namespace Stage

variable (comparator : Comparator β)

theorem deduplication_pinnedTo (stage : Stage β) :
    (stage.pinnedTo comparator).deduplication = stage.deduplication := by
  cases stage <;> rfl

theorem sorting_pinnedTo {stage : Stage β} (sorts : stage.sorting ≠ .unsorted) :
    (stage.pinnedTo comparator).sorting = .byComparator comparator := by
  cases stage with
  | unfiltered | filtered => exact absurd rfl sorts
  | ordered | orderedBy _ => rfl
  | special sorting deduplication =>
    cases sorting with
    | unsorted => exact absurd rfl sorts
    | natural | byComparator _ => rfl

/-- Where nothing can be ordered any more, calls do not depend on what is ordered by. -/
theorem next?_pinnedTo {stage : Stage β} (notPlain : stage.isPlain = false)
    (refinement : Refinement α β) :
    (stage.pinnedTo comparator).next? refinement =
      (stage.next? refinement).map (pinnedTo comparator) := by
  cases stage with
  | unfiltered | filtered => nomatch notPlain
  | ordered | orderedBy _ => cases refinement <;> rfl
  | special sorting deduplication => cases refinement <;> rfl

/-- To order by a comparator is to order and to pin. -/
theorem next?_orderBy (stage : Stage β) :
    stage.next? (.orderBy comparator : Refinement α β) =
      (stage.next? (.ordered : Refinement α β)).map (pinnedTo comparator) := by
  cases stage <;> rfl

end Stage

namespace Query

variable {comparator : Comparator β}

theorem refineAll?_pinnedTo {query : Query α β} (notPlain : query.stage.isPlain = false)
    (chain : Chain α β) :
    (query.pinnedTo comparator).refineAll? chain =
      (query.refineAll? chain).map (pinnedTo comparator) := by
  induction chain generalizing query with
  | nil => rfl
  | cons refinement rest inductionHypothesis =>
    have first : (query.pinnedTo comparator).refine? refinement =
        (query.refine? refinement).map (pinnedTo comparator) := by
      unfold refine?
      show ((query.stage.pinnedTo comparator).next? refinement).map _ = _
      rw [Stage.next?_pinnedTo comparator notPlain, Option.map_map, Option.map_map]
      rfl
    unfold refineAll? at inductionHypothesis ⊢
    rw [List.foldlM_cons, List.foldlM_cons, first]
    cases offered : query.refine? refinement with
    | none => rfl
    | some refined =>
      obtain ⟨stage, next, rfl⟩ := Option.map_eq_some_iff.mp offered
      have stillNotPlain : stage.isPlain = false := by
        refine Bool.eq_false_iff.mpr fun plain => ?_
        rw [(Stage.isPlain_of_next? next plain).1] at notPlain
        nomatch notPlain
      exact inductionHypothesis stillNotPlain

/-- A query that can be ordered has no limit that ordering by a comparator could drop. -/
theorem refine?_orderBy {query : Query α β} (unlimited : query.stage.isPlain → query.limit = none) :
    query.refine? (.orderBy comparator) = (query.refine? .ordered).map (pinnedTo comparator) := by
  unfold refine?
  rw [Stage.next?_orderBy, Option.map_map, Option.map_map]
  cases next : query.stage.next? .ordered with
  | none => rfl
  | some stage =>
    have offered : query.stage.next? (.orderBy comparator : Refinement α β) =
        some (stage.pinnedTo comparator) := by
      rw [Stage.next?_orderBy, next]
      rfl
    have none := unlimited (Stage.isPlain_of_orderBy offered)
    simp [pinnedTo, none, Refinement.limitAfter, Refinement.predicateAfter]

/-- A chain that orders by a comparator builds the query that it builds with the natural order,
pinned to the comparator. -/
theorem refineAll?_orderBy (source : List α) (front back : Chain α β) :
    (ofList source).refineAll? (front ++ .orderBy comparator :: back) =
      ((ofList source).refineAll? (front ++ .ordered :: back)).map (pinnedTo comparator) := by
  unfold refineAll?
  rw [List.foldlM_append, List.foldlM_append]
  cases legal : (front.foldlM refine? (ofList source) : Option (Query α β)) with
  | none => rfl
  | some query =>
    have unlimited := (Chain.describes_of_legal legal).limit_eq_none
    show (Refinement.orderBy comparator :: back).foldlM refine? query =
      ((Refinement.ordered :: back).foldlM refine? query).map (pinnedTo comparator)
    rw [List.foldlM_cons, List.foldlM_cons, refine?_orderBy unlimited]
    cases offered : query.refine? .ordered with
    | none => rfl
    | some ordered =>
      obtain ⟨stage, next, rfl⟩ := Option.map_eq_some_iff.mp offered
      have notPlain : stage.isPlain = false := by
        cases reached : query.stage <;> rw [reached] at next <;> cases next <;> rfl
      exact refineAll?_pinnedTo notPlain back

/-! ### Runs of pinned queries -/

variable [BEq β] {query : Query α β} (mapper : Mapper α β) (paging : Option Paging)

theorem remaining_pinnedTo (items : List β) :
    (query.pinnedTo comparator).remaining paging items = query.remaining paging items :=
  remaining_congr (Stage.deduplication_pinnedTo comparator query.stage) paging items

/-- A pinned query runs as the query does, if the comparator sorts what remains as the query
does. -/
theorem evaluate_pinnedTo [Ord β] (sorts : query.stage.sorting ≠ .unsorted)
    (same : ∀ images, (query.projected mapper).result = .ok images →
      comparator.sort (query.remaining paging images) =
        query.stage.sorting.apply (query.remaining paging images)) :
    (query.pinnedTo comparator).evaluate mapper paging = query.evaluate mapper paging := by
  have outcome : ((query.projected mapper) >>= fun images =>
      (query.stage.pinnedTo comparator).sorting.apply (query.remaining paging images)) =
      query.projected mapper >>= fun images =>
        query.stage.sorting.apply (query.remaining paging images) := by
    rw [Stage.sorting_pinnedTo comparator sorts]
    exact Outcome.bind_congr_of_ok same
  unfold evaluate
  simp only [remaining_pinnedTo]
  exact congrArg (Evaluation.mk _) outcome

/-- By way of a projection, every query can select. -/
theorem select?_of_mapper [Ord β] (query : Query α β) (extent : Extent) :
    query.select? ⟨.mapped mapper, extent⟩ =
      some ((query.evaluate mapper extent.paging).map extent.answer) := if_pos (Bool.or_true _)

theorem select?_pinnedTo [Ord β] {extent : Extent} (sorts : query.stage.sorting ≠ .unsorted)
    (same : ∀ images, (query.projected mapper).result = .ok images →
      comparator.sort (query.remaining extent.paging images) =
        query.stage.sorting.apply (query.remaining extent.paging images)) :
    (query.pinnedTo comparator).select? ⟨.mapped mapper, extent⟩ =
      query.select? ⟨.mapped mapper, extent⟩ := by
  rw [select?_of_mapper, select?_of_mapper, evaluate_pinnedTo mapper extent.paging sorts same]

end Query

/-! ### The natural order as a comparator -/

namespace Chain

/-- A legal chain that orders naturally can order by the natural comparator, or by the key that is
the element itself, instead. What is then selected by way of a projection is the same, with the
same reports, the same log and the same fault if there is one. -/
theorem select_of_natural_comparator [BEq β] [Ord β] [TransOrd β] {source : List α}
    {front back : Chain α β} {query : Query α β} {ordering : Refinement α β}
    (legal : (Query.ofList source).refineAll? (front ++ .ordered :: back) = some query)
    (natural : ordering = .orderBy .natural ∨ ordering = .orderByKey (pure : β → Outcome β)) :
    ∃ pinned, (Query.ofList source).refineAll? (front ++ ordering :: back) = some pinned ∧
      ∀ (mapper : Mapper α β) (extent : Extent), ∃ evaluation,
        query.select? ⟨.mapped mapper, extent⟩ = some evaluation ∧
          pinned.select? ⟨.mapped mapper, extent⟩ = some evaluation := by
  obtain ⟨comparator, rfl, silent⟩ : ∃ comparator : Comparator β, ordering = .orderBy comparator ∧
      ∀ left right, comparator.compare left right = pure (compare left right) := by
    rcases natural with rfl | rfl
    · exact ⟨.natural, rfl, fun _ _ => rfl⟩
    · exact ⟨.byKey pure, rfl, fun _ _ => rfl⟩
  have member : .ordered ∈ front ++ .ordered :: back :=
    List.mem_append_right front List.mem_cons_self
  have sorting : query.stage.sorting = .natural := sorting_eq_of_mem legal member rfl
  have same (items : List β) : comparator.sort items = query.stage.sorting.apply items := by
    rw [sorting, Comparator.sort_of_silent silent]
    rfl
  refine ⟨query.pinnedTo comparator, ?_, fun mapper extent => ?_⟩
  · rw [Query.refineAll?_orderBy, legal]
    rfl
  · have sorts : query.stage.sorting ≠ .unsorted := by
      rw [sorting]
      nofun
    refine ⟨_, query.select?_of_mapper mapper extent, ?_⟩
    rw [Query.select?_pinnedTo mapper sorts fun images _ => same _, Query.select?_of_mapper]

/-- Tagged values, two of which are equal and stay in the order of the source, with a limit behind
the ordering and a projection that logs and would fail if it were called once more. -/
theorem select_of_natural_comparator_of_tags :
    let isTagged : Value → Outcome Bool := fun element => pure (element matches .tagged _ _)
    let mapper : Mapper Value := fun earlierCalls element =>
      ⟨[⟨"map", [.int earlierCalls, element]⟩],
        if earlierCalls < 3 then .ok element else .error .indexOutOfRange⟩
    let source : List Value :=
      [.tagged (.int 2) "a", .tagged (.int 1) "b", .tagged (.int 1) "c", .tagged (.int 0) "d"]
    let front : Chain Value := [.filter isTagged]
    let back : Chain Value := [.limit 3]
    let paging : Paging := ⟨1, 3, by decide, by decide⟩
    ∃ query pinned evaluation,
      (Query.ofList source).refineAll? (front ++ .ordered :: back) = some query ∧
      (Query.ofList source).refineAll? (front ++ .orderByKey pure :: back) = some pinned ∧
      query.select? ⟨.mapped mapper, .page paging⟩ = some evaluation ∧
      pinned.select? ⟨.mapped mapper, .page paging⟩ = some evaluation ∧
      evaluation.outcome.result = .ok (.elements
        [.tagged (.int 1) "b", .tagged (.int 1) "c", .tagged (.int 2) "a"]) := by
  intro isTagged mapper source front back paging
  let query : Query Value :=
    ⟨source, .and .acceptAll (.of isTagged), some 3, .special .natural .keepAll⟩
  have legal : (Query.ofList source).refineAll? (front ++ .ordered :: back) = some query := rfl
  obtain ⟨pinned, pinnedLegal, selections⟩ := select_of_natural_comparator legal (.inr rfl)
  obtain ⟨evaluation, selected, pinnedSelected⟩ := selections mapper (.page paging)
  refine ⟨query, pinned, evaluation, legal, pinnedLegal, selected, pinnedSelected, ?_⟩
  -- The sort by a key can be followed step by step, so the answer is that of the pinned query.
  let sorted : Query Value :=
    { query with stage := .special (.byComparator (.byKey pure)) .keepAll }
  obtain rfl : sorted = pinned := Option.some.inj pinnedLegal
  obtain rfl := Option.some.inj pinnedSelected
  unfold paging
  rfl

end Chain

end StagedQuery
