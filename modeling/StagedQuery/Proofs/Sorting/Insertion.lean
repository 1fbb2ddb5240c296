/-
This file proves that insertion is a stable sort.

The placed elements are listed from the greatest down, so the invariant speaks
about the turned list: it is the stable sort of what was placed. A new element
moves past elements that are greater than it, and past no others.
-/

import StagedQuery.Proofs.Sorting.Answers
import StagedQuery.Proofs.Sorting.StableOrder
import StagedQuery.StableSort.Insertion

namespace StagedQuery.StableSort

open Std Strategy

variable {α : Type} {comparing : α → α → Ordering} [TransCmp comparing]

/-- Placing an element sorts it behind the elements that were placed before. -/
theorem finds_place (element : α) {placed : List α}
    (ascending : Ascending comparing placed.reverse) :
    (place element placed).Finds comparing fun result =>
      StablySorted comparing (placed.reverse ++ [element]) result.reverse := by
  induction placed with
  | nil => exact .singleton element
  | cons neighbour rest inductionHypothesis =>
    rw [List.reverse_cons] at ascending ⊢
    obtain ⟨restAscending, _, le⟩ := ascending_append.mp ascending
    have restLe (item : α) (member : item ∈ rest.reverse) : (comparing item neighbour).isLE :=
      le item member neighbour List.mem_cons_self
    rw [place, Finds.bind_iff, Finds.isLess_iff]
    split
    · rename_i less
      have less : comparing element neighbour = .lt := Ordering.isLT_iff_eq_lt.mp less
      rw [Finds.bind_iff]
      refine (inductionHypothesis restAscending).mono fun result sorted => ?_
      rw [Finds.pure_iff, List.reverse_cons]
      have moved : Rearranged comparing (rest.reverse ++ [neighbour] ++ [element])
          (rest.reverse ++ [element] ++ [neighbour]) := by
        rw [List.append_assoc, List.append_assoc]
        refine (Rearranged.refl rest.reverse).append (.swap ?_)
        simp [OrientedCmp.gt_of_lt less]
      refine (sorted.concat fun item member => ?_).of_rearranged moved
      rcases List.mem_append.mp member with inRest | last
      · exact restLe item inRest
      · rw [List.eq_of_mem_singleton last, less]
        rfl
    · rename_i notLess
      have neighbourLe : (comparing neighbour element).isLE := isLE_of_not_isLT notLess
      rw [Finds.pure_iff, List.reverse_cons, List.reverse_cons]
      refine (StablySorted.of_ascending ascending).concat fun item member => ?_
      rcases List.mem_append.mp member with inRest | last
      · exact TransCmp.isLE_trans (restLe item inRest) neighbourLe
      · rwa [List.eq_of_mem_singleton last]

theorem finds_placeAll {source placed : List α} (items : List α)
    (sorted : StablySorted comparing source placed.reverse) :
    (placeAll placed items).Finds comparing fun result =>
      StablySorted comparing (source ++ items) result.reverse := by
  induction items generalizing source placed with
  | nil => rwa [placeAll, Finds.pure_iff, List.append_nil]
  | cons element rest inductionHypothesis =>
    rw [placeAll, Finds.bind_iff]
    refine (finds_place element sorted.ascending).mono fun next nextSorted => ?_
    have found := inductionHypothesis
      (nextSorted.of_rearranged (sorted.rearranged.append (.refl [element])))
    rwa [List.append_assoc] at found

/-- Insertion sorts stably. -/
theorem finds_insertion (items : List α) :
    (insertion items).Finds comparing (StablySorted comparing items) := by
  have empty : StablySorted comparing [] ([] : List α).reverse := .nil
  rw [insertion, Finds.bind_iff]
  exact finds_placeAll items empty

end StagedQuery.StableSort
