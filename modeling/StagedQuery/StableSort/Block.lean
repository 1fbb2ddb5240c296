/-
This file sorts blocks, which are short lists.

The two halves of a block are sorted by insertion and merged from both ends. In
a block of eight elements or more the first four of each half are sorted
beforehand, with five questions each.
-/

import StagedQuery.StableSort.Insertion
import StagedQuery.StableSort.Merging

namespace StagedQuery.StableSort

open Strategy

variable {α : Type}

/-- The greatest length of a block. -/
def blockLength : Nat := 32

/-- Sorts two pairs, each of which is in order: first the least and the greatest of the four are
found, then the two between them are put in order. -/
def sortPairs (low high : α × α) : Strategy α (List α) := do
  let lowIsLater ← isLess high.1 low.1
  let highIsEarlier ← isLess high.2 low.2
  let least := if lowIsLater then high.1 else low.1
  let greatest := if highIsEarlier then low.2 else high.2
  let left := if lowIsLater then low.1 else if highIsEarlier then high.1 else low.2
  let right := if highIsEarlier then high.2 else if lowIsLater then low.2 else high.1
  if ← isLess right left then return [least, right, left, greatest]
  else return [least, left, right, greatest]

/-- Two elements in order. -/
def sortPair (first second : α) : Strategy α (α × α) := do
  if ← isLess second first then return (second, first) else return (first, second)

/-- Sorts four elements with five questions. -/
def sortFour (first second third fourth : α) : Strategy α (List α) := do
  let low ← sortPair first second
  let high ← sortPair third fourth
  sortPairs low high

/-- Part of a block: the elements placed so far, the greatest first, and the rest. -/
structure Placing (α : Type) where
  placed : List α
  rest : List α

namespace Placing

/-- Nothing is placed yet. -/
def start (items : List α) : Placing α := ⟨[], items⟩

/-- Places the first four elements together. -/
def startWithFour : List α → Strategy α (Placing α)
  | first :: second :: third :: fourth :: rest => do
    return ⟨(← sortFour first second third fourth).reverse, rest⟩
  | items => return start items

/-- Places the rest one after the other. -/
def finish (placing : Placing α) : Strategy α (List α) := do
  return (← placeAll placing.placed placing.rest).reverse

end Placing

/-- Sorts a block: what is done beforehand is done in both halves, before either is finished. -/
def sortBlock (items : List α) : Strategy α (List α) := do
  let half := items.length / 2
  let opening (part : List α) : Strategy α (Placing α) :=
    if 8 ≤ items.length then Placing.startWithFour part else return .start part
  let left ← opening (items.take half)
  let right ← opening (items.drop half)
  mergeEnds (← left.finish) (← right.finish)

end StagedQuery.StableSort
