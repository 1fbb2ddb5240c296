/-
This file proves that it makes no difference whether duplicates are dropped before a list
is sorted or afterwards.

Both keep the same one of equal elements, since a stable sort leaves these in their order
and the first of them is the one that is kept. The order may hold more elements for equal
than equality does. What has to be shown is then that the elements which compare equal are
the same ones in the same order on either way, and dropping duplicates can change places
with picking out these elements.
-/

import StagedQuery.Proofs.Duplicates.Representatives
import StagedQuery.Proofs.Run.Ordering

namespace StagedQuery

open Std

variable {α β : Type}

/-! ### Sorting -/

section

variable [BEq α] {comparing : α → α → Ordering} [TransCmp comparing] {items sorted : List α}

/-- Dropping duplicates from what compares equal to an element. -/
theorem equals_eraseDups (alike : ∀ first second, first == second → comparing first second = .eq)
    (element : α) (items : List α) :
    equals comparing element items.eraseDups = (equals comparing element items).eraseDups := by
  refine filter_eraseDups (fun first second same => ?_) items
  rw [TransCmp.congr_right (alike first second same)]

variable [EquivBEq α]

/-- A list and its stable sort are still that when duplicates are dropped from both. -/
theorem StablySorted.eraseDups
    (alike : ∀ first second, first == second → comparing first second = .eq)
    (stablySorted : StablySorted comparing items sorted) :
    StablySorted comparing items.eraseDups sorted.eraseDups where
  ascending := stablySorted.ascending.sublist (eraseDups_sublist sorted)
  rearranged element := by
    rw [equals_eraseDups alike, equals_eraseDups alike, stablySorted.rearranged element]

theorem mergeSorted_eraseDups
    (alike : ∀ first second, first == second → comparing first second = .eq) (items : List α) :
    mergeSorted comparing items.eraseDups = (mergeSorted comparing items).eraseDups :=
  ((StablySorted.mergeSorted items).eraseDups alike).eq_mergeSorted.symm

end

/-- Where only equal elements compare equal, an ascending list without duplicates ascends
strictly. -/
theorem Ascending.pairwise_lt [BEq α] [Ord α] [TransOrd α] [LawfulBEqOrd α] {items : List α}
    (ascending : Ascending compare items) :
    items.eraseDups.Pairwise fun earlier later => compare earlier later = .lt := by
  have notAbove := ascending.sublist (eraseDups_sublist items)
  refine (notAbove.and (pairwise_eraseDups items)).imp fun {earlier later} both => ?_
  obtain ⟨le, different⟩ := both
  cases comparison : compare earlier later with
  | lt => rfl
  | eq =>
    rw [LawfulBEqOrd.compare_eq_iff_beq, different] at comparison
    nomatch comparison
  | gt =>
    rw [comparison] at le
    nomatch le

/-! ### Runs -/

/-- A naturally ordered query offers every call and gives its images in order. -/
theorem Query.elements?_of_natural [BEq β] [Ord β] {query : Query α β} {projection : Projection α β}
    (natural : query.stage.sorting = .natural) {images : List β}
    (gathered : (query.projected projection.mapper).result = .ok images) :
    query.elements? projection none =
      some (mergeSorted compare (query.stage.deduplication.apply images)) := by
  have offered : query.stage.offers ⟨projection, .all⟩ :=
    Stage.offers_of_not_isPinned (congrArg Sorting.isPinned natural) _
  rw [Query.elements?_eq offered gathered, natural]
  rfl

namespace Chain

/-- Sorting by a total preorder that holds equal elements for equal can change places with dropping
duplicates. So a query that is ordered naturally and drops duplicates gives, if no call fails, what
it would give with its duplicates, but with these dropped, and that ascends strictly. -/
theorem select_distinct_of_ordered [BEq β] [Ord β] [EquivBEq β] :
    (∀ (strategy : Sorting β) (ordering : β → β → Ordering),
      strategy.ordering? = some ordering → TransCmp ordering → strategy.IsLawful →
      (∀ first second, first == second → ordering first second = .eq) →
        ∀ items, ∃ sorted, (strategy.apply items).result = .ok sorted ∧
          (strategy.apply (Deduplication.distinct.apply items)).result =
            .ok (Deduplication.distinct.apply sorted)) ∧
    (TransOrd β → LawfulBEqOrd β → ∀ (source : List α) (chain : Chain α β) (query : Query α β),
      (Query.ofList source).refineAll? chain = some query → .ordered ∈ chain → .distinct ∈ chain →
        ∃ repeating, (Query.ofList source).refineAll?
            (chain.filter fun refinement => !refinement.isDistinct) = some repeating ∧
          ∀ projection : Projection α β,
            (∀ call ∈ (query.phase projection.mapper).calls,
              ((query.phase projection.mapper).outcome call).result = .ok ()) →
            ∃ items, repeating.elements? projection none = some items ∧
              query.elements? projection none = some (Deduplication.distinct.apply items) ∧
              (Deduplication.distinct.apply items).Pairwise fun earlier later =>
                compare earlier later = .lt) := by
  constructor
  · intro strategy ordering orders transitive lawful alike items
    have sorts := Sorting.result_apply_of_sorts lawful orders
    refine ⟨mergeSorted ordering items, sorts items, ?_⟩
    rw [sorts, Deduplication.apply_distinct, Deduplication.apply_distinct,
      ← mergeSorted_eraseDups alike]
  · intro transitive equalAlike source chain query legal ordered distinct
    obtain ⟨repeating, repeatingLegal, omits, keeps, sameSorting⟩ := exists_keepAll legal
    refine ⟨repeating, repeatingLegal, fun projection succeed => ?_⟩
    have natural : query.stage.sorting = .natural := sorting_eq_of_mem legal ordered rfl
    have drops : query.stage.deduplication = .distinct := by
      rw [(describes_of_legal legal).deduplication_eq, if_pos (isDistinct_iff_mem.mpr distinct)]
    have gathered := congrArg Outcome.result
      (Phase.projected_of_none fun call made => Phase.fault?_eq_none_iff.mpr (succeed call made))
    have repeatingGathered := (congrArg Outcome.result (omits.projected_eq _)).trans gathered
    have alike : ∀ first second : β, first == second → compare first second = .eq :=
      fun first second => LawfulBEqOrd.compare_eq_iff_beq.mpr
    refine ⟨_, Query.elements?_of_natural (sameSorting.trans natural) repeatingGathered, ?_⟩
    rw [Query.elements?_of_natural natural gathered, keeps, drops, Deduplication.apply_keepAll,
      Deduplication.apply_distinct, Deduplication.apply_distinct, mergeSorted_eraseDups alike]
    exact ⟨rfl, (StablySorted.mergeSorted _).ascending.pairwise_lt⟩

/-- A list with two equal numbers and with tagged values that differ in their tags only. The
comparator is the natural order turned around. -/
theorem select_distinct_of_ordered_of_tags :
    let source : List Value :=
      [.tagged (.int 2) "a", .tagged (.int 1) "b", .tagged (.int 2) "c", .int 7, .int 7]
    let sorted : List Value :=
      [.int 7, .int 7, .tagged (.int 1) "b", .tagged (.int 2) "a", .tagged (.int 2) "c"]
    let comparator : Comparator Value := (Comparator.byKey fun element => pure element).reversed
    (∃ descending, (comparator.sort source).result = .ok descending ∧
        (comparator.sort (Deduplication.distinct.apply source)).result =
          .ok (Deduplication.distinct.apply descending)) ∧
      ∃ repeating query,
        (Query.ofList source).refineAll? [.ordered, .limit 9] = some repeating ∧
        (Query.ofList source).refineAll? [.ordered, .distinct, .limit 9] = some query ∧
        repeating.elements? (.plain rfl) none = some sorted ∧
        query.elements? (.plain rfl) none =
          some [.int 7, .tagged (.int 1) "b", .tagged (.int 2) "a"] := by
  intro source sorted comparator
  obtain ⟨sorting, running⟩ := @select_distinct_of_ordered Value Value _ _ _
  constructor
  · have lawful : comparator.IsTotalPreorder :=
      (Comparator.isTotalPreorder_byKey fun _ => rfl).reversed
    refine sorting (.byComparator comparator) comparator.ordering rfl lawful.transitive ?_ ?_ source
    · rintro _ ⟨⟩
      exact lawful
    · intro first second same
      show (compare first second).swap = .eq
      rw [LawfulBEqOrd.compare_eq_iff_beq.mpr same]
      rfl
  · let chain : Chain Value := [.ordered, .distinct, .limit 9]
    have legal : (Query.ofList source).refineAll? chain = some _ := rfl
    obtain ⟨repeating, repeatingLegal, gives⟩ :=
      running inferInstance inferInstance source chain _ legal (by simp [chain]) (by simp [chain])
    obtain ⟨items, given, distinct, _⟩ := gives (.plain rfl) (by rintro (_ | _) _ <;> rfl)
    have sortedSource : mergeSorted compare source = sorted :=
      Comparator.mergeSorted_of_sort_natural rfl
    have calculated :
        repeating.elements? (.plain rfl) none = some (mergeSorted compare source) := by
      obtain rfl := Option.some.inj repeatingLegal
      exact Query.elements?_of_natural rfl rfl
    rw [given, sortedSource] at calculated
    obtain rfl := Option.some.inj calculated
    exact ⟨repeating, _, repeatingLegal, legal, given, distinct⟩

end Chain

end StagedQuery
