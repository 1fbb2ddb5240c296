/-
This file defines what a comparator orders by, and when it orders all elements.

A comparator that never fails and compares as a total preorder does answers every
question as its order does, whatever it logs on the way. Sort keys that are
computed without fail make such a comparator, and so does turning one around.
-/

import StagedQuery.Stage

namespace StagedQuery

open Std

variable {α : Type} [Ord α]

namespace Comparator

/-- What a comparator answers. A comparison that fails tells nothing apart. -/
def ordering (comparator : Comparator α) (left right : α) : Ordering :=
  (comparator.compare left right).result.toOption.getD .eq

/-- A comparator that never fails and orders all elements, some of them perhaps equally. -/
structure IsTotalPreorder (comparator : Comparator α) : Prop where
  succeeds : ∀ left right,
    (comparator.compare left right).result = .ok (comparator.ordering left right)
  transitive : TransCmp comparator.ordering

/-- Sort keys that are computed without fail compare as their order does. -/
theorem isTotalPreorder_byKey {κ : Type} [Ord κ] [TransOrd κ] {key : α → Outcome κ} {value : α → κ}
    (computes : ∀ element, (key element).result = .ok (value element)) :
    (byKey key).IsTotalPreorder := by
  have result : ∀ left right, ((byKey key).compare left right).result =
      .ok (Ord.compare (value left) (value right)) := by
    intro left right
    rw [byKey, compare_of, Outcome.bind_of_ok (computes left), Outcome.result_behind,
      Outcome.bind_of_ok (computes right), Outcome.result_behind]
    rfl
  have same : (byKey key).ordering = compareOn value := by
    funext left right
    rw [ordering, result]
    rfl
  constructor
  case succeeds =>
    intro left right
    rw [result, same]
    rfl
  case transitive =>
    rw [same]
    infer_instance

/-- A reversed comparator answers the other way round. -/
theorem ordering_reversed (comparator : Comparator α) (left right : α) :
    comparator.reversed.ordering left right = (comparator.ordering left right).swap := by
  rw [ordering, ordering, compare_reversed, Outcome.result_map]
  cases (comparator.compare left right).result <;> rfl

/-- Where a comparator orders all elements, that is the order from its other end. -/
theorem IsTotalPreorder.ordering_reversed {comparator : Comparator α}
    (lawful : comparator.IsTotalPreorder) :
    comparator.reversed.ordering = fun left right => comparator.ordering right left := by
  have transitive := lawful.transitive
  funext left right
  rw [comparator.ordering_reversed]
  exact OrientedCmp.eq_swap.symm

/-- A total preorder remains one when it is turned around. -/
theorem IsTotalPreorder.reversed {comparator : Comparator α} (lawful : comparator.IsTotalPreorder) :
    comparator.reversed.IsTotalPreorder := by
  have transitive := lawful.transitive
  constructor
  case succeeds =>
    intro left right
    rw [compare_reversed, Outcome.result_map, lawful.succeeds, comparator.ordering_reversed]
    rfl
  case transitive =>
    rw [lawful.ordering_reversed]
    exact TransCmp.opposite

end Comparator

namespace Sorting

/-- What a strategy sorts by, if it sorts. -/
def ordering? : Sorting α → Option (α → α → Ordering)
  | .unsorted => none
  | .natural => some compare
  | .byComparator comparator => some comparator.ordering

/-- A strategy whose comparator, if it has one, is a total preorder. -/
def IsLawful (sorting : Sorting α) : Prop :=
  ∀ comparator, sorting = .byComparator comparator → comparator.IsTotalPreorder

end Sorting

end StagedQuery
