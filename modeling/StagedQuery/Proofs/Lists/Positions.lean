/-
This file picks elements out of a list by their positions.

What a page shows and what is left without duplicates are both such choices: the
one of positions between two bounds, the other of positions in front of which no
equal element stands. Neither depends on what follows in the list, so both are
followed along a list that grows at its end.
-/

import Mathlib.Data.List.Induction

namespace StagedQuery

variable {α : Type}

/-- The elements of a list at the chosen positions, in the order of the list. -/
def atPositions (items : List α) (chosen : Nat → Bool) : List α :=
  (items.zipIdx.filter fun place => chosen place.2).map Prod.fst

theorem atPositions_nil (chosen : Nat → Bool) : atPositions ([] : List α) chosen = [] := rfl

theorem atPositions_concat (items : List α) (last : α) (chosen : Nat → Bool) :
    atPositions (items ++ [last]) chosen =
      atPositions items chosen ++ if chosen items.length then [last] else [] := by
  unfold atPositions
  rw [List.zipIdx_append, List.filter_append, List.map_append, List.zipIdx_singleton, Nat.zero_add]
  cases inside : chosen items.length <;> simp [inside]

/-- Only the positions in the list matter. -/
theorem atPositions_congr {items : List α} {first second : Nat → Bool}
    (agree : ∀ position < items.length, first position = second position) :
    atPositions items first = atPositions items second := by
  unfold atPositions
  refine congrArg _ (List.filter_congr fun place member => agree place.2 ?_)
  have inside := List.snd_lt_add_of_mem_zipIdx member
  rwa [Nat.zero_add] at inside

/-- A stretch of a list is what stands between two bounds. -/
theorem take_drop_eq_atPositions (start count : Nat) (items : List α) :
    (items.drop start).take count =
      atPositions items fun position => start ≤ position && position < start + count := by
  induction items using List.reverseRecOn with
  | nil => rw [List.drop_nil, List.take_nil, atPositions_nil]
  | append_singleton items last inductionHypothesis =>
    rw [atPositions_concat, ← inductionHypothesis]
    by_cases reached : start ≤ items.length
    · rw [List.drop_append_of_le_length reached, List.take_append, List.length_drop]
      refine congrArg _ ?_
      by_cases inside : items.length < start + count
      · have room : 1 ≤ count - (items.length - start) := by omega
        rw [if_pos (by simp [reached, inside]), List.take_of_length_le room]
      · have full : count - (items.length - start) = 0 := by omega
        rw [if_neg (by simp [inside]), full, List.take_zero]
    · have behind : (items ++ [last]).length ≤ start := by
        rw [List.length_append, List.length_singleton]
        exact Nat.lt_of_not_le reached
      rw [if_neg (by simp [reached]), List.append_nil, List.drop_eq_nil_of_le behind,
        List.drop_eq_nil_of_le (Nat.le_of_not_le reached)]

end StagedQuery
