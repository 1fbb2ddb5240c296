/-
This file sorts a list by its runs, which are joined along a balanced tree.

The boundary between two neighbouring runs has a depth in that tree. A deep
boundary is joined before a shallow one, so that lists of about the same length
are merged whatever the lengths of the runs.
-/

import StagedQuery.StableSort.Run

namespace StagedQuery.StableSort

open Strategy

variable {α : Type}

/-- The number of binary digits of a number. -/
def binaryLength (number : Nat) : Nat := if number = 0 then 0 else number.log2 + 1

/-- A number near the square root, found by halving. -/
def nearSquareRoot (number : Nat) : Nat :=
  let power := Nat.pow 2 ((number.log2 + 1) / 2)
  (power + number / power) / 2

/-- The length from which on a run that is found is used. -/
def usefulLength (length : Nat) : Nat :=
  if length ≤ 4096 then min (length - length / 2) 64 else nearSquareRoot length

/-- The depth of a boundary: the midpoints of the runs on its sides, as binary fractions of the
length, agree in so many leading digits. -/
def boundaryDepth (length start middle stop : Nat) : Nat :=
  let scale := (Nat.pow 2 62 + length - 1) / length
  64 - binaryLength ((scale * (start + middle)) ^^^ (scale * (middle + stop)))

/-- A run that waits to be joined, and the depth of the boundary behind it. -/
structure Waiting (α : Type) where
  run : Run α
  depth : Nat

/-- Joins a run with the waiting ones, the last of them first, as long as their boundaries are
at least so deep; gives the run and those that still wait. -/
def joinDeep (sort : List α → Strategy α (List α)) (depth : Nat) (run : Run α) :
    List (Waiting α) → Strategy α (Run α × List (Waiting α))
  | [] => return (run, [])
  | last :: earlier =>
    if depth ≤ last.depth then do joinDeep sort depth (← last.run.join sort run) earlier
    else return (run, last :: earlier)

/-- How runs are cut and sorted: the length of the whole list, whether blocks are sorted at once,
and what sorts the stretches that were put off. -/
structure Plan (α : Type) where
  length : Nat
  eager : Bool
  sort : List α → Strategy α (List α)

namespace Plan

/-- Cuts the next run off a list. -/
def cut (plan : Plan α) (items : List α) : Strategy α (Run α) :=
  Run.cut plan.eager (usefulLength plan.length) items

/-- Goes through the rest of a list behind a run that ends at a position. Every cut takes at
least one element, so that there are no more cuts than elements. -/
def joinRest (plan : Plan α) : (cuts : Nat) → (position : Nat) → (run : Run α) →
    (waiting : List (Waiting α)) → (rest : List α) → Strategy α (Run α)
  | cuts + 1, position, run, waiting, next :: rest => do
    let following ← plan.cut (next :: rest)
    let stop := position + following.length
    let depth := boundaryDepth plan.length (position - run.length) position stop
    let (joined, waiting) ← joinDeep plan.sort depth run waiting
    plan.joinRest cuts stop following (⟨joined, depth⟩ :: waiting)
      ((next :: rest).drop following.length)
  | _, _, run, waiting, _ => do return (← joinDeep plan.sort 0 run waiting).1

/-- Sorts the list of a plan. -/
def carryOut (plan : Plan α) (items : List α) : Strategy α (List α) := do
  let first ← plan.cut items
  let run ← plan.joinRest items.length first.length first [] (items.drop first.length)
  run.settle plan.sort

end Plan

/-- Sorts a list by its runs, and stretches without runs in the given way. -/
def sortByRuns (eager : Bool) (sort : List α → Strategy α (List α)) (items : List α) :
    Strategy α (List α) :=
  Plan.carryOut ⟨items.length, eager, sort⟩ items

end StagedQuery.StableSort
