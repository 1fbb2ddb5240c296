/-
This file proves what cutting a list off has to do with dropping its duplicates.

Whether an element is kept depends on what stands in front of it. What is kept of the
front of a list is therefore kept of the whole list too, and comes first there. But a
front of so many elements need not keep so many: in the place of its duplicates the whole
list has elements from further back. There is no difference only if the front has no
duplicates, or if nothing further back is new.
-/

import StagedQuery.Proofs.Duplicates.Representatives
import StagedQuery.Proofs.Paging.Slices

namespace StagedQuery

variable {α : Type} [BEq α]

/-! ### Fronts -/

namespace Deduplication

/-- The marks in the front of a list do not depend on what follows. -/
theorem prefix_keepMarked (seen front rest : List α) :
    keepMarked front (firstSeen seen front) <+:
      keepMarked (front ++ rest) (firstSeen seen (front ++ rest)) := by
  induction front generalizing seen with
  | nil => exact List.nil_prefix
  | cons item front inductionHypothesis =>
    rw [List.cons_append]
    by_cases known : seen.any (item == ·)
    · rw [firstSeen, firstSeen, if_pos known, if_pos known]
      exact inductionHypothesis seen
    · rw [firstSeen, firstSeen, if_neg known, if_neg known]
      exact (List.prefix_cons_inj item).mpr (inductionHypothesis (item :: seen))

/-- What becomes of the front of a list comes first in what becomes of the whole. -/
theorem prefix_apply (deduplication : Deduplication) {front items : List α}
    (isFront : front <+: items) : deduplication.apply front <+: deduplication.apply items := by
  obtain ⟨rest, rfl⟩ := isFront
  cases deduplication with
  | keepAll => exact List.prefix_append front rest
  | distinct => exact prefix_keepMarked [] front rest

end Deduplication

/-- Cut off first, a list does not keep more of its elements, and none that it would not keep
otherwise. -/
theorem prefix_eraseDups_take (count : Nat) (items : List α) :
    (items.take count).eraseDups <+: items.eraseDups.take count := by
  have isFront := Deduplication.distinct.prefix_apply (List.take_prefix count items)
  rw [Deduplication.apply_distinct, Deduplication.apply_distinct] at isFront
  refine List.prefix_take_iff.mpr ⟨isFront, ?_⟩
  exact Nat.le_trans (length_eraseDups_le _) (List.length_take_le count items)

/-! ### Where it makes no difference -/

variable [EquivBEq α]

/-- Every element has a representative among those that are kept. -/
theorem exists_mem_eraseDups {items : List α} {element : α} (member : element ∈ items) :
    ∃ representative ∈ items.eraseDups, element == representative := by
  have represented : 0 < items.eraseDups.countP (element == ·) := by
    rw [countP_eraseDups member]
    exact Nat.one_pos
  exact List.countP_pos_iff.mp represented

/-- Behind a front in which every element has a representative, nothing more is kept. -/
theorem eraseDups_eq_of_represented {front items : List α} (isFront : front <+: items)
    (represented : ∀ item ∈ items, ∃ representative ∈ front, item == representative) :
    items.eraseDups = front.eraseDups := by
  obtain ⟨rest, rfl⟩ := isFront
  have nothingNew : (rest.eraseDups.filter fun other => !front.any (other == ·)) = [] := by
    refine List.filter_eq_nil_iff.mpr fun item kept isNew => ?_
    have inRest := (eraseDups_sublist rest).subset kept
    rw [List.any_eq_true.mpr (represented item (List.mem_append_right front inRest))] at isNew
    nomatch isNew
  rw [eraseDups_append, nothingNew, List.append_nil]

/-- It makes no difference whether a list is cut off before its duplicates are dropped or
afterwards, if there are none among the first elements, or if these represent all others. -/
theorem eraseDups_take_eq_iff (count : Nat) (items : List α) :
    (items.take count).eraseDups = items.eraseDups.take count ↔
      ((items.take count).Pairwise fun earlier later => (earlier == later) = false) ∨
        ∀ item ∈ items, ∃ representative ∈ items.take count, item == representative := by
  have isFront := prefix_eraseDups_take count items
  have fewer := length_eraseDups_le items
  constructor
  · intro same
    by_cases full : count ≤ items.eraseDups.length
    · -- The first elements keep their number, so none of them is dropped.
      have lengths := congrArg List.length same
      rw [List.length_take, Nat.min_eq_left full] at lengths
      have enough : (items.take count).length ≤ (items.take count).eraseDups.length := by
        rw [lengths]
        exact List.length_take_le count items
      have noneDropped := (eraseDups_sublist _).eq_of_length_le enough
      have different := pairwise_eraseDups (items.take count)
      rw [noneDropped] at different
      exact .inl different
    · rw [List.take_of_length_le (Nat.le_of_not_le full)] at same
      refine .inr fun item member => ?_
      obtain ⟨representative, kept, equal⟩ := exists_mem_eraseDups member
      rw [← same] at kept
      exact ⟨representative, (eraseDups_sublist _).subset kept, equal⟩
  · rintro (different | represented)
    · refine isFront.eq_of_length_le ?_
      rw [eraseDups_of_pairwise different, List.length_take, List.length_take]
      omega
    · have whole := eraseDups_eq_of_represented (List.take_prefix count items) represented
      have few := Nat.le_trans (length_eraseDups_le _) (List.length_take_le count items)
      rw [whole, List.take_of_length_le few]

end StagedQuery
