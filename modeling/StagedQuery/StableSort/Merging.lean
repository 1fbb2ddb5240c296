/-
This file merges two sorted lists.

Heads are taken off the two lists one at a time: the lesser one, and of two
equals the left one. Lists that are turned around are merged from their ends:
there the greater head is taken, and of two equals the right one. A shorter left
list is merged from the front, a shorter right list from the back.

Two lists of about the same length can also be merged from both ends at once, in
rounds that take one head at each end. Neither end looks at what the other one
has taken. If the answers are those of an order, the two ends meet.
-/

import StagedQuery.Strategy

namespace StagedQuery.StableSort

open Strategy

variable {α : Type}

/-- A merge under way: the heads taken so far, the last one first, and what is left over. -/
structure Merging (α : Type) where
  taken : List α
  left : List α
  right : List α

namespace Merging

/-- The merge of two lists before its first step. -/
def start (left right : List α) : Merging α := ⟨[], left, right⟩

/-- Takes the head of the left list, if there is one. -/
def takeLeft : Merging α → Merging α
  | ⟨taken, head :: left, right⟩ => ⟨head :: taken, left, right⟩
  | ⟨taken, [], right⟩ => ⟨taken, [], right⟩

/-- Takes the head of the right list, if there is one. -/
def takeRight : Merging α → Merging α
  | ⟨taken, left, head :: right⟩ => ⟨head :: taken, left, right⟩
  | ⟨taken, left, []⟩ => ⟨taken, left, []⟩

/-- Takes one head: of two heads the lesser one, or in turned lists the greater one. -/
def take (turned : Bool) (merging : Merging α) : Strategy α (Merging α) :=
  match merging.left, merging.right with
  | leftHead :: _, rightHead :: _ => do
    if (← isLess rightHead leftHead) != turned then return merging.takeRight
    else return merging.takeLeft
  | [], _ => return merging.takeRight
  | _, [] => return merging.takeLeft

/-- Takes the lesser head, the left one of two equals. -/
def takeLesser : Merging α → Strategy α (Merging α) := take false

/-- Takes the greater head, the right one of two equals. -/
def takeGreater : Merging α → Strategy α (Merging α) := take true

end Merging

/-- Merges two lists from the front. -/
def mergeForward (left right : List α) : Strategy α (List α) := do
  let merging ← repeated Merging.takeLesser (left.length + right.length) (.start left right)
  return merging.taken.reverse

/-- Merges two lists from the back. -/
def mergeBackward (left right : List α) : Strategy α (List α) := do
  let merging ← repeated Merging.takeGreater (left.length + right.length)
    (.start left.reverse right.reverse)
  return merging.taken

/-- Merges two sorted lists; equal elements of the left one come first. -/
def merge (left right : List α) : Strategy α (List α) :=
  if left.length ≤ right.length then mergeForward left right else mergeBackward left right

/-! ### Both ends at once -/

/-- A merge under way from both ends. -/
structure EndMerging (α : Type) where
  front : Merging α
  back : Merging α

namespace EndMerging

/-- The merge of two lists from both ends before its first step. -/
def start (left right : List α) : EndMerging α :=
  ⟨.start left right, .start left.reverse right.reverse⟩

/-- Takes one head in front and then one at the back. -/
def take (merging : EndMerging α) : Strategy α (EndMerging α) := do
  let front ← merging.front.takeLesser
  let back ← merging.back.takeGreater
  return ⟨front, back⟩

/-- Takes the element between the ends: a left one, if not all of these are taken. -/
def takeMiddle (leftLength : Nat) (merging : EndMerging α) : EndMerging α :=
  if leftLength < merging.front.left.length + merging.back.left.length then
    { merging with front := merging.front.takeLeft }
  else { merging with front := merging.front.takeRight }

/-- The two ends put together, if they meet in both lists. -/
def finish (leftLength : Nat) (merging : EndMerging α) : Strategy α (List α) :=
  if merging.front.left.length + merging.back.left.length = leftLength then
    pure (merging.front.taken.reverse ++ merging.back.taken)
  else contradicted

end EndMerging

/-- Merges two lists of about the same length from both ends at once. -/
def mergeEnds (left right : List α) : Strategy α (List α) := do
  let length := left.length + right.length
  let merging ← repeated EndMerging.take (length / 2) (.start left right)
  if length % 2 = 0 then merging.finish left.length
  else (merging.takeMiddle left.length).finish left.length

end StagedQuery.StableSort
