/-
This file proves that a query with an ordering gives the stable sort of what it would
give without.

The two queries are built by the same calls apart from the ordering. They gather the
same images and are left with the same elements, page included, before the one of them
sorts. What the stable sort is does not depend on how it is carried out: no other list
ascends and has the equal elements in the order in which they stood.
-/

import StagedQuery.Proofs.Construction.Omissions
import StagedQuery.Proofs.Run.Pages

namespace StagedQuery

open Std

variable {α β : Type}

/-! ### The stable sort -/

/-- What a stable sort makes of a list, told apart from all other lists. It holds the same
elements, ascends, and leaves the elements that compare equal in their order; a list that ascends
already stays as it is. -/
structure UniquelySorted (comparing : α → α → Ordering) (items sorted : List α) : Prop where
  perm : sorted.Perm items
  ascending : Ascending comparing sorted
  rearranged : Rearranged comparing items sorted
  unique : ∀ other, Ascending comparing other → Rearranged comparing items other → other = sorted
  eq_of_ascending : Ascending comparing items → sorted = items

theorem StablySorted.uniquelySorted {comparing : α → α → Ordering} [TransCmp comparing]
    {items sorted : List α} (stablySorted : StablySorted comparing items sorted) :
    UniquelySorted comparing items sorted where
  perm := stablySorted.perm
  ascending := stablySorted.ascending
  rearranged := stablySorted.rearranged
  unique _ ascending rearranged := StablySorted.unique ⟨ascending, rearranged⟩ stablySorted
  eq_of_ascending ascending := stablySorted.unique (.of_ascending ascending)

/-! ### Orderings -/

/-- A call that orders by a total preorder: by the natural order, or by a comparator that never
fails, which can be made from sort keys. -/
inductive Refinement.OrdersBy [Ord β] : Refinement α β → (β → β → Ordering) → Prop where
  | ordered (transitive : TransOrd β) : OrdersBy .ordered compare
  | orderBy {comparator : Comparator β} (lawful : comparator.IsTotalPreorder) :
    OrdersBy (.orderBy comparator) comparator.ordering

namespace Refinement.OrdersBy

variable [Ord β] {refinement : Refinement α β} {ordering : β → β → Ordering}

theorem transCmp (orders : refinement.OrdersBy ordering) : TransCmp ordering := by
  cases orders with
  | ordered transitive => exact transitive
  | orderBy lawful => exact lawful.transitive

/-- The strategy that such a call gives a query sorts stably by the order. -/
theorem exists_strategy (orders : refinement.OrdersBy ordering) :
    ∃ strategy, refinement.sorting? = some strategy ∧
      ∀ items, (strategy.apply items).result = .ok (mergeSorted ordering items) := by
  cases orders with
  | ordered transitive => exact ⟨.natural, rfl, fun _ => rfl⟩
  | orderBy lawful => exact ⟨_, rfl, Comparator.result_sort lawful⟩

end Refinement.OrdersBy

/-! ### Answers in lists -/

namespace Query

variable [BEq β] [Ord β] {query : Query α β} {projection : Projection α β} {paging : Option Paging}

/-- A query that does not sort offers every call and gives what remains of its images. -/
theorem elements?_of_unsorted (unsorted : query.stage.sorting = .unsorted) {images : List β}
    (gathered : (query.projected projection.mapper).result = .ok images) :
    query.elements? projection paging = some (query.remaining paging images) := by
  have offered : query.stage.offers ⟨projection, paging.elim .all .page⟩ :=
    Stage.offers_of_not_isPinned (congrArg Sorting.isPinned unsorted) _
  rw [elements?_eq offered gathered, unsorted]
  rfl

end Query

/-! ### Chains with and without their ordering -/

namespace Chain

/-- Wherever the chain without its ordering gives elements, the chain with it gives their stable
sort. -/
theorem select_sorts_unordered [BEq β] [Ord β] {source : List α} {chain : Chain α β}
    {query : Query α β} {refinement : Refinement α β} {ordering : β → β → Ordering}
    (legal : (Query.ofList source).refineAll? chain = some query) (member : refinement ∈ chain)
    (orders : refinement.OrdersBy ordering) :
    ∃ unordered, (Query.ofList source).refineAll?
        (chain.filter fun other => other.sorting?.isNone) = some unordered ∧
      ∀ projection paging items, query.stage.offers ⟨projection, paging.elim .all .page⟩ →
        unordered.elements? projection paging = some items →
          ∃ sorted, query.elements? projection paging = some sorted ∧
            UniquelySorted ordering items sorted := by
  obtain ⟨unordered, unorderedLegal, omits, unsorted, deduplication⟩ := exists_unsorted legal
  refine ⟨unordered, unorderedLegal, fun projection paging items offered given => ?_⟩
  obtain ⟨images, gathered⟩ := Query.exists_gathered_of_elements? given
  rw [Query.elements?_of_unsorted unsorted gathered] at given
  obtain rfl := Option.some.inj given
  rw [omits.projected_eq] at gathered
  rw [Query.remaining_congr deduplication]
  obtain ⟨strategy, told, sorts⟩ := orders.exists_strategy
  have transitive := orders.transCmp
  have stablySorted : StablySorted ordering (query.remaining paging images) _ := .mergeSorted _
  refine ⟨_, ?_, stablySorted.uniquelySorted⟩
  rw [Query.elements?_eq offered gathered, sorting_eq_of_mem legal member told, sorts]
  rfl

/-- The first page of tagged values in the order of their keys. Two of them have the same key and
stay in their order. -/
theorem select_sorts_unordered_of_tags :
    let isTagged : Value → Outcome Bool := fun element => pure (element matches .tagged _ _)
    let key : Value → Outcome Value := fun element => ⟨[⟨"key", [element]⟩], .ok element⟩
    let chain : Chain Value := [.filter isTagged, .orderByKey key, .limit 4]
    let source : List Value :=
      [.tagged (.int 3) "a", .null, .tagged (.int 1) "b", .tagged (.int 1) "c",
        .tagged (.int 0) "d"]
    let items : List Value := [.tagged (.int 3) "a", .tagged (.int 1) "b", .tagged (.int 1) "c"]
    let sorted : List Value := [.tagged (.int 1) "b", .tagged (.int 1) "c", .tagged (.int 3) "a"]
    ∃ query, (Query.ofList source).refineAll? chain = some query ∧
      query.elements? (.mapped .identity) (some ⟨1, 3, by decide, by decide⟩) = some sorted ∧
      UniquelySorted (Comparator.byKey key).ordering items sorted := by
  intro isTagged key chain source items sorted
  have legal : (Query.ofList source).refineAll? chain = some _ := rfl
  have orders : (.orderByKey key : Refinement Value).OrdersBy (Comparator.byKey key).ordering :=
    .orderBy (Comparator.isTotalPreorder_byKey fun _ => rfl)
  obtain ⟨unordered, unorderedLegal, sorts⟩ := select_sorts_unordered legal (by simp [chain]) orders
  obtain rfl := Option.some.inj unorderedLegal
  obtain ⟨found, given, uniquely⟩ :=
    sorts (.mapped .identity) (some ⟨1, 3, by decide, by decide⟩) items rfl rfl
  obtain rfl : sorted = found := Option.some.inj given
  exact ⟨_, legal, given, uniquely⟩

end Chain

end StagedQuery
