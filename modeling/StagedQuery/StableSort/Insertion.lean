/-
This file sorts by insertion.

Elements are placed one after the other. Each new element is compared with the
elements placed before it, the greatest first, and moves ahead of those that it
is less than; it stays behind an equal one, which makes the sort stable.
-/

import StagedQuery.Strategy

namespace StagedQuery.StableSort

open Strategy

variable {α : Type}

/-- Places an element among the ones placed before, which are listed from the greatest down. -/
def place (element : α) : List α → Strategy α (List α)
  | [] => pure [element]
  | neighbour :: rest => do
    if ← isLess element neighbour then return neighbour :: (← place element rest)
    else return element :: neighbour :: rest

/-- Places elements one after the other. -/
def placeAll (placed : List α) : List α → Strategy α (List α)
  | [] => pure placed
  | element :: rest => do placeAll (← place element placed) rest

/-- Sorts a list by placing its elements from the left. -/
def insertion (items : List α) : Strategy α (List α) := do
  return (← placeAll [] items).reverse

end StagedQuery.StableSort
