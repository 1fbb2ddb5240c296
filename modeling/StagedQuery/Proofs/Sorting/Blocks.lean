/-
This file proves that a block is sorted stably.

Four elements are two pairs in order. Whatever the answers, the least and the
greatest element of the four and the two between them are a rearrangement of the
four in which only unequal elements have changed places, so that one question
about the two between them is enough.
-/

import StagedQuery.Proofs.Sorting.Insertion
import StagedQuery.Proofs.Sorting.Merging
import StagedQuery.StableSort.Block

namespace StagedQuery.StableSort

open Std Strategy

variable {α : Type} {comparing : α → α → Ordering} [TransCmp comparing]

/-! ### Four elements -/

theorem finds_sortPair (first second : α) :
    (sortPair first second).Finds comparing fun pair =>
      StablySorted comparing [first, second] [pair.1, pair.2] := by
  rw [sortPair, Finds.bind_iff, Finds.isLess_iff]
  split
  · rename_i less
    have less : comparing second first = .lt := Ordering.isLT_iff_eq_lt.mp less
    have swapped : Rearranged comparing ([first] ++ [second]) ([second] ++ [first]) :=
      .swap (by simp [OrientedCmp.gt_of_lt less])
    refine StablySorted.of_rearranged swapped (StablySorted.of_ascending ?_)
    simp [Ascending, less]
  · rename_i notLess
    have le : (comparing first second).isLE := isLE_of_not_isLT notLess
    refine StablySorted.of_ascending ?_
    simp [Ascending, le]

/-- Between the least and the greatest of four elements one question is open. -/
theorem finds_between {least left right greatest : α}
    (leastLe : ∀ item ∈ [left, right, greatest], (comparing least item).isLE)
    (leGreatest : ∀ item ∈ [left, right], (comparing item greatest).isLE) :
    (isLess right left >>= fun turned =>
        if turned then pure [least, right, left, greatest]
        else pure [least, left, right, greatest] : Strategy α (List α)).Finds comparing
      (StablySorted comparing [least, left, right, greatest]) := by
  have around {middle : List α} (sorted : StablySorted comparing [left, right] middle) :
      StablySorted comparing (least :: ([left, right] ++ [greatest]))
        (least :: (middle ++ [greatest])) := (sorted.concat leGreatest).cons leastLe
  have middle : (sortPair left right).Finds comparing fun pair =>
    StablySorted comparing [left, right] [pair.1, pair.2] := finds_sortPair left right
  rw [sortPair, Finds.bind_iff, Finds.isLess_iff] at middle
  rw [Finds.bind_iff, Finds.isLess_iff]
  split
  · rename_i less
    rw [if_pos less] at middle
    exact around middle
  · rename_i notLess
    rw [if_neg notLess] at middle
    exact around middle

/-- Two pairs in order are sorted by three questions. -/
theorem finds_sortPairs {low high : α × α} (lowOrdered : (comparing low.1 low.2).isLE)
    (highOrdered : (comparing high.1 high.2).isLE) :
    (sortPairs low high).Finds comparing
      (StablySorted comparing [low.1, low.2, high.1, high.2]) := by
  obtain ⟨first, second⟩ := low
  obtain ⟨third, fourth⟩ := high
  rw [sortPairs, Finds.bind_iff, Finds.isLess_iff, Finds.bind_iff, Finds.isLess_iff]
  have ofLess {item other : α} (less : comparing item other = .lt) :
      (comparing item other).isLE := by
    rw [less]
    rfl
  -- The cases are whether the least element is a high one and whether the greatest is a low one.
  cases least : (comparing third first).isLT <;> cases greatest : (comparing fourth second).isLT
  · have firstThird : (comparing first third).isLE := isLE_of_not_isLT (by rw [least]; decide)
    have secondFourth : (comparing second fourth).isLE :=
      isLE_of_not_isLT (by rw [greatest]; decide)
    refine finds_between ?_ ?_
    · simp [lowOrdered, firstThird, TransCmp.isLE_trans lowOrdered secondFourth]
    · simp [secondFourth, highOrdered]
  · have firstThird : (comparing first third).isLE := isLE_of_not_isLT (by rw [least]; decide)
    have fourthSecond : comparing fourth second = .lt := Ordering.isLT_iff_eq_lt.mp greatest
    have thirdSecond : comparing third second = .lt :=
      TransCmp.lt_of_isLE_of_lt highOrdered fourthSecond
    have moved : Rearranged comparing ([second] ++ [third, fourth]) ([third, fourth] ++ [second]) :=
      .swap (by simp [OrientedCmp.gt_of_lt thirdSecond, OrientedCmp.gt_of_lt fourthSecond])
    refine (finds_between ?_ ?_).mono fun result sorted =>
      sorted.of_rearranged ((Rearranged.refl [first]).append moved)
    · simp [lowOrdered, firstThird, TransCmp.isLE_trans firstThird highOrdered]
    · simp [ofLess thirdSecond, ofLess fourthSecond]
  · have thirdFirst : comparing third first = .lt := Ordering.isLT_iff_eq_lt.mp least
    have secondFourth : (comparing second fourth).isLE :=
      isLE_of_not_isLT (by rw [greatest]; decide)
    have thirdSecond : comparing third second = .lt :=
      TransCmp.lt_of_lt_of_isLE thirdFirst lowOrdered
    have moved : Rearranged comparing ([first, second] ++ [third]) ([third] ++ [first, second]) :=
      .swap (by simp [OrientedCmp.gt_of_lt thirdFirst, OrientedCmp.gt_of_lt thirdSecond])
    refine (finds_between ?_ ?_).mono fun result sorted =>
      sorted.of_rearranged (moved.append (.refl [fourth]))
    · simp [ofLess thirdFirst, ofLess thirdSecond, highOrdered]
    · simp [secondFourth, TransCmp.isLE_trans lowOrdered secondFourth]
  · have thirdFirst : comparing third first = .lt := Ordering.isLT_iff_eq_lt.mp least
    have fourthSecond : comparing fourth second = .lt := Ordering.isLT_iff_eq_lt.mp greatest
    have thirdSecond : comparing third second = .lt :=
      TransCmp.lt_of_lt_of_isLE thirdFirst lowOrdered
    have leastMoved : Rearranged comparing ([first, second] ++ [third])
        ([third] ++ [first, second]) :=
      .swap (by simp [OrientedCmp.gt_of_lt thirdFirst, OrientedCmp.gt_of_lt thirdSecond])
    have greatestMoved : Rearranged comparing ([second] ++ [fourth]) ([fourth] ++ [second]) :=
      .swap (by simp [OrientedCmp.gt_of_lt fourthSecond])
    refine (finds_between ?_ ?_).mono fun result sorted => sorted.of_rearranged
      ((leastMoved.append (.refl [fourth])).trans
        ((Rearranged.refl [third, first]).append greatestMoved))
    · simp [ofLess thirdFirst, ofLess thirdSecond, highOrdered]
    · simp [lowOrdered, ofLess fourthSecond]

theorem finds_sortFour (first second third fourth : α) :
    (sortFour first second third fourth).Finds comparing
      (StablySorted comparing [first, second, third, fourth]) := by
  have ordered {left right : α} {pair : α × α}
      (sorted : StablySorted comparing [left, right] [pair.1, pair.2]) :
      (comparing pair.1 pair.2).isLE :=
    (ascending_cons.mp sorted.ascending).1 pair.2 List.mem_cons_self
  rw [sortFour, Finds.bind_iff]
  refine (finds_sortPair first second).mono fun low lowSorted => ?_
  rw [Finds.bind_iff]
  refine (finds_sortPair third fourth).mono fun high highSorted => ?_
  exact (finds_sortPairs (ordered lowSorted) (ordered highSorted)).mono fun result sorted =>
    sorted.of_rearranged (lowSorted.rearranged.append highSorted.rearranged)

/-! ### Blocks -/

namespace Placing

/-- A part of a block, the first elements of which have been placed in order. -/
def Of (comparing : α → α → Ordering) (part : List α) (placing : Placing α) : Prop :=
  ∃ front, part = front ++ placing.rest ∧ StablySorted comparing front placing.placed.reverse

omit [TransCmp comparing] in
theorem of_start (part : List α) : (start part).Of comparing part := ⟨[], rfl, .nil⟩

theorem finds_startWithFour (part : List α) :
    (startWithFour part).Finds comparing (Of comparing part) := by
  unfold startWithFour
  split
  · rename_i first second third fourth rest
    rw [Finds.bind_iff]
    refine (finds_sortFour first second third fourth).mono fun four sorted => ?_
    refine ⟨[first, second, third, fourth], rfl, ?_⟩
    rwa [List.reverse_reverse]
  · exact of_start part

theorem finds_finish {part : List α} {placing : Placing α} (placed : placing.Of comparing part) :
    placing.finish.Finds comparing (StablySorted comparing part) := by
  obtain ⟨front, rfl, sorted⟩ := placed
  rw [finish, Finds.bind_iff]
  exact finds_placeAll placing.rest sorted

end Placing

/-- A block is sorted stably. -/
theorem finds_sortBlock (items : List α) :
    (sortBlock items).Finds comparing (StablySorted comparing items) := by
  have finds_opening (part : List α) :
      (if 8 ≤ items.length then Placing.startWithFour part else pure (.start part)).Finds comparing
        (Placing.Of comparing part) := by
    split
    · exact Placing.finds_startWithFour part
    · exact Placing.of_start part
  rw [sortBlock, Finds.bind_iff]
  refine (finds_opening (items.take (items.length / 2))).mono fun left leftPlaced => ?_
  rw [Finds.bind_iff]
  refine (finds_opening (items.drop (items.length / 2))).mono fun right rightPlaced => ?_
  rw [Finds.bind_iff]
  refine (Placing.finds_finish leftPlaced).mono fun leftItems leftSorted => ?_
  rw [Finds.bind_iff]
  refine (Placing.finds_finish rightPlaced).mono fun rightItems rightSorted => ?_
  refine (finds_mergeEnds leftSorted.ascending rightSorted.ascending).mono fun result sorted => ?_
  have halves := sorted.of_rearranged (leftSorted.rearranged.append rightSorted.rearranged)
  rwa [List.take_append_drop] at halves

end StagedQuery.StableSort
