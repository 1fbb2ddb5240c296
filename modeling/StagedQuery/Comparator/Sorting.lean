/-
This file sorts a list by a comparator.

The comparator answers the questions of the stable sort. A list with fewer than
two elements is never compared, and the first fault of the comparator ends the
sort.
-/

import StagedQuery.Comparator
import StagedQuery.StableSort

namespace StagedQuery.Comparator

variable {α β : Type} [Ord α]

/-- Follows a strategy, each question of which the comparator answers. -/
def follow (comparator : Comparator α) : Strategy α β → Outcome β
  | .done value => pure value
  | .ask left right next => do
    let comparison ← comparator.compare left right
    comparator.follow (next comparison.isLT)
  | .contradicted => Outcome.fail .inconsistentOrder

/-- Sorts a list; elements that compare equal keep their order. -/
def sort (comparator : Comparator α) (items : List α) : Outcome (List α) :=
  comparator.follow (StableSort.sort items)

end StagedQuery.Comparator
