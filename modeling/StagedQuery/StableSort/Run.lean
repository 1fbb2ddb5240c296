/-
This file cuts a list into runs: stretches that are sorted, or whose sorting is
put off.

A run that is long enough is used as it is found. It ascends, or it descends
strictly and is turned around, which keeps the sort stable as no two of its
elements are equal. Where there is none, a block is sorted at once, or a stretch
of unsorted elements is put off. Two neighbouring runs are sorted before they
are joined only if one of them already is sorted.
-/

import StagedQuery.StableSort.Block

namespace StagedQuery.StableSort

open Strategy

variable {α : Type}

/-- A stretch of a list, sorted or put off. -/
structure Run (α : Type) where
  items : List α
  sorted : Bool

namespace Run

/-- The number of elements of a run. -/
def length (run : Run α) : Nat := run.items.length

/-- The elements of a run in order. -/
def settle (sort : List α → Strategy α (List α)) (run : Run α) : Strategy α (List α) :=
  if run.sorted then pure run.items else sort run.items

/-- Joins two neighbouring runs. -/
def join (sort : List α → Strategy α (List α)) (left right : Run α) : Strategy α (Run α) :=
  if left.sorted || right.sorted then do
    let leftItems ← left.settle sort
    let rightItems ← right.settle sort
    return ⟨← merge leftItems rightItems, true⟩
  else return ⟨left.items ++ right.items, false⟩

/-- Follows a run for as long as it descends strictly, or for as long as it does not; gives it with
the last element first. -/
def follow (descending : Bool) (last : α) (earlier : List α) : List α → Strategy α (List α)
  | [] => return last :: earlier
  | next :: rest => do
    if (← isLess next last) = descending then follow descending next (last :: earlier) rest
    else return last :: earlier

/-- The run that a list begins with, in order. -/
def find : List α → Strategy α (List α)
  | first :: second :: rest => do
    let descending ← isLess second first
    let run ← follow descending second [first] rest
    return if descending then run else run.reverse
  | items => return items

/-- Without a run to be found: sorts a block, or puts off the sorting of the given length. -/
def fill (eager : Bool) (length : Nat) (items : List α) : Strategy α (Run α) :=
  if eager then do return ⟨← sortBlock (items.take blockLength), true⟩
  else return ⟨items.take length, false⟩

/-- The run to cut off a list, given the length from which on a run that is found is used. -/
def cut (eager : Bool) (length : Nat) (items : List α) : Strategy α (Run α) :=
  if items.length < length then fill eager length items
  else do
    let found ← find items
    if found.length < length then fill eager length items else return ⟨found, true⟩

end Run

end StagedQuery.StableSort
