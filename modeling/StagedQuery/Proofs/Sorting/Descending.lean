/-
This file proves that sorting in descending order is stable too, and how it is related
to turning a sorted list around.

A reversed comparator turns its results and leaves the elements in their places, so the
sort still finds equal elements in their order and keeps it. Turning the sorted list
around turns the equal elements around with it. That can be made up for by turning the
list around beforehand as well, and it makes no difference if the equal elements read
the same from both ends.
-/

import StagedQuery.Proofs.Order.Values
import StagedQuery.Proofs.Sorting.Comparisons

namespace StagedQuery

open Std

variable {α : Type} {comparing : α → α → Ordering}

/-! ### Lists turned around -/

theorem equals_reverse (element : α) (items : List α) :
    equals comparing element items.reverse = (equals comparing element items).reverse :=
  List.filter_reverse

/-- Elements that compare equal also do so from the other end of the order. -/
theorem equals_opposite [OrientedCmp comparing] (element : α) (items : List α) :
    equals (fun left right => comparing right left) element items =
      equals comparing element items := by
  refine List.filter_congr fun item _ => ?_
  have swapped : comparing item element = (comparing element item).swap := OrientedCmp.eq_swap
  show (comparing item element).isEq = _
  rw [swapped, Ordering.isEq_swap]

theorem equals_congr [TransCmp comparing] {first second : α}
    (same : comparing first second = .eq) (items : List α) :
    equals comparing first items = equals comparing second items := by
  refine List.filter_congr fun item _ => ?_
  rw [TransCmp.congr_left same]

/-- Where the elements equal to each member read the same from both ends, so do those equal to any
other element. -/
theorem reverse_equals_of_members [TransCmp comparing] {items : List α}
    (alike : ∀ element ∈ items,
      (equals comparing element items).reverse = equals comparing element items) (element : α) :
    (equals comparing element items).reverse = equals comparing element items := by
  cases found : equals comparing element items with
  | nil => rfl
  | cons first rest =>
    have member : first ∈ equals comparing element items := found ▸ List.mem_cons_self
    obtain ⟨inItems, same⟩ := mem_equals.mp member
    rw [← found, equals_congr same]
    exact alike first inItems

/-! ### Descending lists -/

/-- A list in which no element stands behind a lesser one. -/
def Descending (comparing : α → α → Ordering) (items : List α) : Prop :=
  items.Pairwise fun earlier later => (comparing earlier later).isGE

theorem Ascending.reverse [OrientedCmp comparing] {items : List α}
    (ascending : Ascending comparing items) : Descending comparing items.reverse := by
  refine List.pairwise_reverse.mpr (ascending.imp fun {earlier later} le => ?_)
  rwa [OrientedCmp.isGE_eq_isLE]

/-- What a stable sort in descending order makes of a list: elements that compare equal are still in
the order of the list. -/
structure StablyDescending (comparing : α → α → Ordering) (items sorted : List α) : Prop where
  descending : Descending comparing sorted
  rearranged : Rearranged comparing items sorted

namespace StablyDescending

variable {items sorted : List α}

/-- To sort in descending order is to sort by the order from its other end. -/
theorem iff_stablySorted [OrientedCmp comparing] : StablyDescending comparing items sorted ↔
    StablySorted (fun left right => comparing right left) items sorted := by
  have ascending : Descending comparing sorted ↔
      Ascending (fun left right => comparing right left) sorted := by
    unfold Descending Ascending
    simp only [OrientedCmp.isGE_eq_isLE]
  have rearranged : Rearranged comparing items sorted ↔
      Rearranged (fun left right => comparing right left) items sorted := by
    unfold Rearranged
    simp only [equals_opposite]
  exact ⟨fun sorts => ⟨ascending.mp sorts.descending, rearranged.mp sorts.rearranged⟩,
    fun sorts => ⟨ascending.mpr sorts.ascending, rearranged.mpr sorts.rearranged⟩⟩

variable [TransCmp comparing]

theorem unique {sorted' : List α} (first : StablyDescending comparing items sorted)
    (second : StablyDescending comparing items sorted') : sorted = sorted' :=
  have : TransCmp fun left right => comparing right left := TransCmp.opposite
  (iff_stablySorted.mp first).unique (iff_stablySorted.mp second)

/-- Equal elements that are turned around before the sort and after it are in their order again. -/
theorem of_reverse (stablySorted : StablySorted comparing items.reverse sorted) :
    StablyDescending comparing items sorted.reverse where
  descending := stablySorted.ascending.reverse
  rearranged element := by
    rw [equals_reverse, ← stablySorted.rearranged element, equals_reverse, List.reverse_reverse]

/-- Sorting in descending order is turning the sorted list around just where the equal elements read
the same from both ends. -/
theorem eq_reverse_iff {ascending : List α} (descends : StablyDescending comparing items sorted)
    (ascends : StablySorted comparing items ascending) :
    sorted = ascending.reverse ↔ ∀ element ∈ items,
      (equals comparing element items).reverse = equals comparing element items := by
  have turned (element : α) : equals comparing element ascending.reverse =
      (equals comparing element items).reverse := by
    rw [equals_reverse, ascends.rearranged element]
  constructor
  · intro same element _
    rw [← turned, ← same, descends.rearranged element]
  · intro alike
    refine descends.unique ⟨ascends.ascending.reverse, fun element => ?_⟩
    rw [turned, reverse_equals_of_members alike]

end StablyDescending

/-! ### Sorting by a reversed comparator -/

namespace Comparator

variable [Ord α] {comparator : Comparator α}

/-- A reversed total preorder sorts in descending order. -/
theorem IsTotalPreorder.stablyDescending (lawful : comparator.IsTotalPreorder) (items : List α) :
    StablyDescending comparator.ordering items
      (mergeSorted comparator.reversed.ordering items) := by
  have transitive := lawful.transitive
  have reversed := lawful.reversed.transitive
  rw [lawful.ordering_reversed] at reversed ⊢
  exact StablyDescending.iff_stablySorted.mpr (.mergeSorted items)

/-- Sorting by a reversed total preorder, however it is written, succeeds and sorts stably in
descending order. It gives what is left when the list is turned around, sorted and turned around
again; and it gives the sorted list turned around if and only if the elements equal to each member
read the same from both ends. -/
theorem sort_reversed_is_stable (lawful : comparator.IsTotalPreorder) (items : List α) :
    ∃ ascending turned descending, (comparator.sort items).result = .ok ascending ∧
      (comparator.sort items.reverse).result = .ok turned ∧
      (comparator.reversed.sort items).result = .ok descending ∧
      ((comparator.directed .descending).sort items).result = .ok descending ∧
      descending = turned.reverse ∧
      StablyDescending comparator.ordering items descending ∧
      (descending = ascending.reverse ↔ ∀ element ∈ items,
        (equals comparator.ordering element items).reverse =
          equals comparator.ordering element items) := by
  have transitive := lawful.transitive
  have descends := lawful.stablyDescending items
  have sorted := result_sort lawful.reversed items
  refine ⟨_, _, _, result_sort lawful items, result_sort lawful items.reverse, sorted, sorted, ?_,
    descends, descends.eq_reverse_iff (.mergeSorted items)⟩
  exact descends.unique (.of_reverse (.mergeSorted items.reverse))

/-- Two pairs of tagged values with equal keys. In descending order each pair stays as it is, while
turning the sorted list around would turn the pairs around too. -/
theorem sort_reversed_is_stable_of_tags :
    let key : Value → Outcome Value := fun element => ⟨[⟨"key", [element]⟩], .ok element⟩
    let comparator : Comparator Value := .byKey key
    let source : List Value :=
      [.tagged (.int 1) "a", .tagged (.int 2) "b", .tagged (.int 1) "c", .tagged (.int 2) "d"]
    let expected : List Value :=
      [.tagged (.int 2) "b", .tagged (.int 2) "d", .tagged (.int 1) "a", .tagged (.int 1) "c"]
    (comparator.reversed.sort source).result = .ok expected ∧
      StablyDescending comparator.ordering source expected ∧
      (∃ turned, (comparator.sort source.reverse).result = .ok turned ∧
        turned.reverse = expected) ∧
      ∃ ascending, (comparator.sort source).result = .ok ascending ∧
        ascending.reverse ≠ expected := by
  intro key comparator source expected
  have lawful : comparator.IsTotalPreorder := isTotalPreorder_byKey fun _ => rfl
  obtain ⟨ascending, turned, descending, sorted, turnedSorted, reverseSorted, _, same, descends,
    iffAlike⟩ := sort_reversed_is_stable lawful source
  have computed : (comparator.reversed.sort source).result = .ok expected := rfl
  obtain rfl : descending = expected := Except.ok.inj (reverseSorted.symm.trans computed)
  refine ⟨computed, descends, ⟨turned, turnedSorted, same.symm⟩, ascending, sorted, fun alike => ?_⟩
  have palindrome := iffAlike.mp alike.symm (.tagged (.int 1) "a") List.mem_cons_self
  have ones : equals comparator.ordering (.tagged (.int 1) "a") source =
      [.tagged (.int 1) "a", .tagged (.int 1) "c"] := rfl
  rw [ones] at palindrome
  simp at palindrome

end Comparator

end StagedQuery
