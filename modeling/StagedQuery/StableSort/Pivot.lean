/-
This file chooses a pivot in a list and divides the list by it.

The pivot is a median of medians. Every other element is compared with it once,
from left to right, and both parts keep their order.
-/

import StagedQuery.Strategy

namespace StagedQuery.StableSort

open Strategy

variable {α : Type}

/-! ### The choice -/

/-- The position of the median of three elements. -/
def median (items : List α) (first second third : Fin items.length) :
    Strategy α (Fin items.length) := do
  let belowSecond ← isLess items[first] items[second]
  let belowThird ← isLess items[first] items[third]
  if belowSecond = belowThird then
    if (← isLess items[second] items[third]) = belowSecond then return second else return third
  else return first

/-- The position that speaks for a stretch: its start, or in a long one the median of the
positions that speak for three parts of it. -/
def representative (items : List α) (start length : Nat) (nonempty : 0 < length)
    (within : start + length ≤ items.length) : Strategy α (Fin items.length) :=
  if long : 8 ≤ length then do
    let eighth := length / 8
    let first ← representative items start eighth (by omega) (by omega)
    let second ← representative items (start + 4 * eighth) eighth (by omega) (by omega)
    let third ← representative items (start + 7 * eighth) eighth (by omega) (by omega)
    median items first second third
  else return ⟨start, by omega⟩
termination_by length

/-! ### The division -/

/-- A list seen from one of its elements. -/
structure Pivoted (α : Type) where
  before : List α
  pivot : α
  after : List α

/-- Two parts of a list. -/
structure Parts (α : Type) where
  first : List α
  second : List α

/-- Divides a list: elements for which the answer is yes come into the first part. The parts so
far are listed last first. -/
def Parts.divide (question : α → Strategy α Bool) (parts : Parts α) :
    List α → Strategy α (Parts α)
  | [] => return parts
  | item :: rest => do
    if ← question item then divide question ⟨item :: parts.first, parts.second⟩ rest
    else divide question ⟨parts.first, item :: parts.second⟩ rest

/-- The parts in the order of the list. -/
def Parts.reverse (parts : Parts α) : Parts α := ⟨parts.first.reverse, parts.second.reverse⟩

namespace Pivoted

/-- A list with elements, seen from its pivot. -/
def choose (items : List α) (nonempty : 0 < items.length) : Strategy α (Pivoted α) := do
  let position ← representative items 0 items.length nonempty (Nat.le_of_eq (Nat.zero_add _))
  return ⟨items.take position, items[position], items.drop (position + 1)⟩

/-- The elements less than the pivot, and the others with the pivot. -/
def divideBelow (pivoted : Pivoted α) : Strategy α (Parts α) := do
  let question (item : α) : Strategy α Bool := isLess item pivoted.pivot
  let parts ← Parts.divide question ⟨[], []⟩ pivoted.before
  let parts ← Parts.divide question ⟨parts.first, pivoted.pivot :: parts.second⟩ pivoted.after
  return parts.reverse

/-- The elements not greater than the pivot with the pivot itself, and the others. -/
def divideAbove (pivoted : Pivoted α) : Strategy α (Parts α) := do
  let question (item : α) : Strategy α Bool := not <$> isLess pivoted.pivot item
  let parts ← Parts.divide question ⟨[], []⟩ pivoted.before
  let parts ← Parts.divide question ⟨pivoted.pivot :: parts.first, parts.second⟩ pivoted.after
  return parts.reverse

end Pivoted

end StagedQuery.StableSort
