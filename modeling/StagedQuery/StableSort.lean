/-
This file defines the stable sort, as a strategy.

A short list is sorted by insertion. A longer one is sorted by its runs, and
where it has none, block by block or by pivots, as its length decides. Which
elements are compared matters to a caller whose comparisons can fail.
-/

import StagedQuery.StableSort.Quicksort

namespace StagedQuery.StableSort

variable {α : Type}

/-- The greatest length of a list that is sorted by insertion. -/
def insertionLength : Nat := 20

/-- Sorts a list; of two elements neither of which is less, the earlier one comes first. -/
def sort (items : List α) : Strategy α (List α) :=
  if items.length ≤ insertionLength then insertion items
  else sortByRuns (items.length ≤ 2 * blockLength) quicksort items

end StagedQuery.StableSort
