/-
This file sorts a list by pivots: what is less than a pivot, then the rest.

Equal elements are set aside together. They are found where nothing is less than
the pivot, and where the pivot is not greater than the one that the list lies
behind. A list whose pivots divide badly too often is sorted by its runs.
-/

import StagedQuery.StableSort.Adaptive
import StagedQuery.StableSort.Pivot

namespace StagedQuery.StableSort

open Strategy

variable {α : Type}

/-- Whether a pivot equals the earlier one that the list lies behind, if there is one: no element
is less than that one. -/
def repeats (earlier : Option α) (pivot : α) : Strategy α Bool :=
  match earlier with
  | some element => not <$> isLess element pivot
  | none => return false

/-- Sorts a list by at most so many pivots in a row, behind an earlier pivot or none. -/
def sortByPivots : (pivots : Nat) → (earlier : Option α) → List α → Strategy α (List α)
  | 0, _, items =>
    if items.length ≤ blockLength then sortBlock items else sortByRuns true insertion items
  | pivots + 1, earlier, items =>
    if short : items.length ≤ blockLength then sortBlock items
    else do
      let pivoted ← Pivoted.choose items (by omega)
      let parts ←
        if ← repeats earlier pivoted.pivot then pure ⟨[], items⟩ else pivoted.divideBelow
      if parts.first.isEmpty then
        let parts ← pivoted.divideAbove
        return parts.first ++ (← sortByPivots pivots none parts.second)
      else
        let second ← sortByPivots pivots (some pivoted.pivot) parts.second
        let first ← sortByPivots pivots earlier parts.first
        return first ++ second

/-- Sorts a list by pivots; twice as many as halvings would need are tried in a row. -/
def quicksort (items : List α) : Strategy α (List α) :=
  sortByPivots (2 * items.length.log2) none items

end StagedQuery.StableSort
