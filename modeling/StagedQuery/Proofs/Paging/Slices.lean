/-
This file proves how the pages of a list fit together.

On a list that can be counted, the count of the elements in front of a page never
has to stay at the greatest word: where it would, the page is past the end of the
list either way. What is left are stretches of equal length, of which consecutive
ones join without a gap.
-/

import Mathlib.Algebra.Order.Floor.Div
import StagedQuery.Stage
import StagedQuery.Paging

namespace StagedQuery

variable {α : Type}

/-- The stretch of a list that a page shows, where nothing bounds the numbers. -/
def stretch (size number : Nat) (items : List α) : List α :=
  (items.drop ((number - 1) * size)).take size

theorem length_stretch (size number : Nat) (items : List α) :
    (stretch size number items).length = min size (items.length - (number - 1) * size) := by
  rw [stretch, List.length_take, List.length_drop]

theorem stretch_eq_nil {size number : Nat} {items : List α}
    (behind : items.length ≤ (number - 1) * size) : stretch size number items = [] := by
  rw [stretch, List.drop_eq_nil_of_le behind, List.take_nil]

/-- Consecutive stretches join to a longer one. -/
theorem flatten_stretches (size start count : Nat) (items : List α) :
    ((List.range' (start + 1) count).map fun number => stretch size number items).flatten =
      (items.drop (start * size)).take (count * size) := by
  induction count generalizing start with
  | zero => simp
  | succ count inductionHypothesis =>
    have split : (count + 1) * size = size + count * size := by
      rw [Nat.succ_mul, Nat.add_comm]
    rw [List.range'_succ, List.map_cons, List.flatten_cons, inductionHypothesis, stretch,
      Nat.add_sub_cancel, split, List.take_add, List.drop_drop, Nat.succ_mul]

/-- The stretches up to the last that is not empty make up the list. -/
theorem flatten_stretches_eq {size : Nat} (size_pos : 0 < size) (items : List α) :
    ((List.range' 1 (items.length ⌈/⌉ size)).map fun number => stretch size number items).flatten =
      items := by
  have joined := flatten_stretches size 0 (items.length ⌈/⌉ size) items
  rw [Nat.zero_add] at joined
  rw [joined, Nat.zero_mul, List.drop_zero, List.take_of_length_le]
  have covered : items.length ≤ size • (items.length ⌈/⌉ size) := le_smul_ceilDiv size_pos
  rwa [smul_eq_mul, Nat.mul_comm] at covered

/-- On a list that can be counted, a page shows the stretch with its number. -/
theorem Paging.slice_eq_stretch {items : List α} (countable : items.length ≤ greatestCount)
    (paging : Paging) :
    paging.slice items = stretch paging.perPage.toNat paging.page.toNat items := by
  rw [slice, stretch, offset_eq]
  rcases Nat.le_total ((paging.page.toNat - 1) * paging.perPage.toNat) greatestCount with
    inRange | outOfRange
  · rw [Nat.min_eq_left inRange]
  · rw [Nat.min_eq_right outOfRange, List.drop_eq_nil_of_le countable,
      List.drop_eq_nil_of_le (Nat.le_trans countable outOfRange)]

/-- Dropping duplicates makes no list longer. -/
theorem length_eraseDups_le [BEq α] (items : List α) : items.eraseDups.length ≤ items.length := by
  match items with
  | [] => exact Nat.le_refl _
  | first :: rest =>
    have fewer := List.length_filter_le (fun item => !item == first) rest
    have shorter := length_eraseDups_le (rest.filter fun item => !item == first)
    rw [List.eraseDups_cons, List.length_cons, List.length_cons]
    exact Nat.succ_le_succ (Nat.le_trans shorter fewer)
termination_by items.length
decreasing_by
  exact Nat.lt_succ_of_le fewer

theorem Deduplication.length_apply_le [BEq α] (deduplication : Deduplication) (items : List α) :
    (deduplication.apply items).length ≤ items.length := by
  cases deduplication with
  | keepAll => exact Nat.le_refl _
  | distinct =>
    rw [apply_distinct]
    exact length_eraseDups_le items

end StagedQuery
