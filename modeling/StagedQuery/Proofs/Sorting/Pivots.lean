/-
This file proves that sorting by pivots is a stable sort.

A pivot parts a list into what is less and the rest, or into what is not greater
and the rest; equal elements are never parted. Where nothing is less than the
pivot, all that is not greater equals it and is sorted already. An earlier pivot
that the list lies behind only spares the question whether something is less.
-/

import StagedQuery.Proofs.Sorting.Runs
import StagedQuery.StableSort

namespace StagedQuery.StableSort

open Std Strategy

variable {α : Type} {comparing : α → α → Ordering}

/-! ### The choice -/

theorem finds_median (items : List α) (first second third : Fin items.length) :
    (median items first second third).Finds comparing fun _ => True := by
  rw [median, Finds.bind_iff, Finds.isLess_iff, Finds.bind_iff, Finds.isLess_iff]
  split
  · rw [Finds.bind_iff, Finds.isLess_iff]
    split <;> trivial
  · trivial

theorem finds_representative (items : List α) (start length : Nat) (nonempty : 0 < length)
    (within : start + length ≤ items.length) :
    (representative items start length nonempty within).Finds comparing fun _ => True := by
  induction length using Nat.strongRecOn generalizing start with
  | ind length inductionHypothesis =>
    rw [representative]
    split
    · have shorter : length / 8 < length := by omega
      rw [Finds.bind_iff]
      refine (inductionHypothesis _ shorter _ _ _).mono fun first _ => ?_
      rw [Finds.bind_iff]
      refine (inductionHypothesis _ shorter _ _ _).mono fun second _ => ?_
      rw [Finds.bind_iff]
      exact (inductionHypothesis _ shorter _ _ _).mono fun third _ =>
        finds_median items first second third
    · trivial

/-! ### The division -/

/-- The parts into which a test divides a list. -/
def Parts.of (test : α → Bool) (items : List α) : Parts α :=
  ⟨items.filter test, items.filter fun item => !test item⟩

/-- A question divides a list as a test does that gives the same answers. -/
theorem Parts.finds_divide {question : α → Strategy α Bool} {test : α → Bool}
    (answers : ∀ item, (question item).Finds comparing fun answer => answer = test item)
    (parts : Parts α) (items : List α) :
    (Parts.divide question parts items).Finds comparing fun divided =>
      divided = ⟨(Parts.of test items).first.reverse ++ parts.first,
        (Parts.of test items).second.reverse ++ parts.second⟩ := by
  unfold Parts.of
  induction items generalizing parts with
  | nil => exact rfl
  | cons head rest inductionHypothesis =>
    rw [Parts.divide, Finds.bind_iff]
    refine (answers head).mono fun answer same => ?_
    subst same
    split
    · rename_i yes
      rw [List.filter_cons_of_pos yes, List.filter_cons_of_neg (by simp [yes]), List.reverse_cons,
        List.append_assoc]
      exact inductionHypothesis ⟨head :: parts.first, parts.second⟩
    · rename_i no
      rw [List.filter_cons_of_neg no, List.filter_cons_of_pos (by simp [no]), List.reverse_cons,
        List.append_assoc]
      exact inductionHypothesis ⟨parts.first, head :: parts.second⟩

/-- Whether an element is less than a pivot. -/
def below (comparing : α → α → Ordering) (pivot item : α) : Bool := (comparing item pivot).isLT

/-- Whether an element is not greater than a pivot. -/
def notAbove (comparing : α → α → Ordering) (pivot item : α) : Bool :=
  !(comparing pivot item).isLT

namespace Pivoted

/-- The list that is seen from a pivot. -/
def items (pivoted : Pivoted α) : List α := pivoted.before ++ pivoted.pivot :: pivoted.after

theorem items_mk {items : List α} (position : Fin items.length) :
    Pivoted.items ⟨items.take position.val, items.get position, items.drop (position.val + 1)⟩ =
      items := by
  show items.take position.val ++ items.get position :: items.drop (position.val + 1) = items
  rw [List.get_eq_getElem, List.getElem_cons_drop, List.take_append_drop]

theorem finds_choose (items : List α) (nonempty : 0 < items.length) :
    (choose items nonempty).Finds comparing fun pivoted => pivoted.items = items := by
  rw [choose, Finds.bind_iff]
  exact (finds_representative items 0 items.length nonempty _).mono fun position _ =>
    items_mk position

variable [TransCmp comparing]

theorem finds_divideBelow (pivoted : Pivoted α) :
    pivoted.divideBelow.Finds comparing fun parts =>
      parts = .of (below comparing pivoted.pivot) pivoted.items := by
  have answers (item : α) : (isLess item pivoted.pivot).Finds comparing fun answer =>
      answer = below comparing pivoted.pivot item := rfl
  have pivotAnswer : below comparing pivoted.pivot pivoted.pivot = false := by
    have same : comparing pivoted.pivot pivoted.pivot = .eq := ReflCmp.compare_self
    rw [below, same]
    rfl
  rw [divideBelow, Finds.bind_iff]
  refine (Parts.finds_divide answers ⟨[], []⟩ pivoted.before).mono ?_
  rintro _ rfl
  rw [Finds.bind_iff]
  refine (Parts.finds_divide answers _ pivoted.after).mono ?_
  rintro _ rfl
  rw [Finds.pure_iff]
  simp [Parts.reverse, Parts.of, items, pivotAnswer]

theorem finds_divideAbove (pivoted : Pivoted α) :
    pivoted.divideAbove.Finds comparing fun parts =>
      parts = .of (notAbove comparing pivoted.pivot) pivoted.items := by
  have answers (item : α) : (not <$> isLess pivoted.pivot item).Finds comparing fun answer =>
      answer = notAbove comparing pivoted.pivot item := rfl
  have pivotAnswer : notAbove comparing pivoted.pivot pivoted.pivot = true := by
    have same : comparing pivoted.pivot pivoted.pivot = .eq := ReflCmp.compare_self
    rw [notAbove, same]
    rfl
  rw [divideAbove, Finds.bind_iff]
  refine (Parts.finds_divide answers ⟨[], []⟩ pivoted.before).mono ?_
  rintro _ rfl
  rw [Finds.bind_iff]
  refine (Parts.finds_divide answers _ pivoted.after).mono ?_
  rintro _ rfl
  rw [Finds.pure_iff]
  simp [Parts.reverse, Parts.of, items, pivotAnswer]

end Pivoted

/-! ### The sort -/

section

variable [TransCmp comparing]

/-- Parts can be sorted apart if every element of the first is less than all of the second. -/
theorem stablySorted_of_parts {test : α → Bool} {items first second : List α}
    (less : ∀ item other, test item = true → test other = false → comparing item other = .lt)
    (firstSorted : StablySorted comparing (Parts.of test items).first first)
    (secondSorted : StablySorted comparing (Parts.of test items).second second) :
    StablySorted comparing items (first ++ second) := by
  have parted : Rearranged comparing items _ :=
    .partition test fun item _ other _ yes no same => by
      rw [less item other yes no] at same
      contradiction
  refine (firstSorted.append secondSorted fun item member other otherMember => ?_).of_rearranged
    parted
  have yes := (List.mem_filter.mp member).2
  have no := (List.mem_filter.mp otherMember).2
  rw [Bool.not_eq_true'] at no
  rw [less item other yes no]
  rfl

theorem isLE_of_not_below {pivot item : α} (notBelow : below comparing pivot item = false) :
    (comparing pivot item).isLE :=
  isLE_of_not_isLT (Bool.eq_false_iff.mp notBelow)

theorem isLE_of_notAbove {pivot item : α} (notGreater : notAbove comparing pivot item = true) :
    (comparing item pivot).isLE := by
  rw [notAbove, Bool.not_eq_true', Bool.eq_false_iff] at notGreater
  exact isLE_of_not_isLT notGreater

/-- What is below a pivot and what is not can be sorted apart. -/
theorem stablySorted_below {pivot : α} {items first second : List α}
    (firstSorted : StablySorted comparing (Parts.of (below comparing pivot) items).first first)
    (secondSorted : StablySorted comparing (Parts.of (below comparing pivot) items).second second) :
    StablySorted comparing items (first ++ second) :=
  stablySorted_of_parts (fun _ _ yes no =>
    TransCmp.lt_of_lt_of_isLE (Ordering.isLT_iff_eq_lt.mp yes) (isLE_of_not_below no))
    firstSorted secondSorted

/-- Where nothing is below a pivot, what is not above it is sorted. -/
theorem stablySorted_notAbove {pivot : α} {items second : List α}
    (least : ∀ item ∈ items, (comparing pivot item).isLE)
    (secondSorted :
      StablySorted comparing (Parts.of (notAbove comparing pivot) items).second second) :
    StablySorted comparing items
      ((Parts.of (notAbove comparing pivot) items).first ++ second) := by
  have firstAscending : Ascending comparing (Parts.of (notAbove comparing pivot) items).first := by
    refine List.pairwise_of_forall_mem_list fun item member other otherMember => ?_
    exact TransCmp.isLE_trans (isLE_of_notAbove (List.mem_filter.mp member).2)
      (least other (List.mem_filter.mp otherMember).1)
  refine stablySorted_of_parts (fun item other yes no => ?_) (.of_ascending firstAscending)
    secondSorted
  rw [notAbove, Bool.not_eq_false'] at no
  exact TransCmp.lt_of_isLE_of_lt (isLE_of_notAbove yes) (Ordering.isLT_iff_eq_lt.mp no)

/-- A pivot that repeats the earlier one is not greater than any element. -/
theorem finds_repeats {earlier : Option α} {items : List α}
    (behind : ∀ element ∈ earlier, ∀ item ∈ items, (comparing element item).isLE) (pivot : α) :
    (repeats earlier pivot).Finds comparing fun answer =>
      answer = true → ∀ item ∈ items, (comparing pivot item).isLE := by
  cases earlier with
  | none => exact fun impossible => absurd impossible Bool.false_ne_true
  | some element =>
    rw [repeats, Finds.map_iff, Finds.isLess_iff]
    intro notLess item member
    rw [Bool.not_eq_true', Bool.eq_false_iff] at notLess
    exact TransCmp.isLE_trans (isLE_of_not_isLT notLess) (behind element rfl item member)

/-- A pivot divides a list, or it is a least element and divides nothing. -/
def Divided (comparing : α → α → Ordering) (pivoted : Pivoted α) (parts : Parts α) : Prop :=
  parts = .of (below comparing pivoted.pivot) pivoted.items ∨
    parts.first = [] ∧ ∀ item ∈ pivoted.items, (comparing pivoted.pivot item).isLE

/-- The parts of a divided list are sorted and put together. -/
theorem finds_sortParts {pivots : Nat} {earlier : Option α} {pivoted : Pivoted α} {parts : Parts α}
    (sorts : ∀ {earlier : Option α} {items : List α},
      (∀ element ∈ earlier, ∀ item ∈ items, (comparing element item).isLE) →
        (sortByPivots pivots earlier items).Finds comparing (StablySorted comparing items))
    (behind : ∀ element ∈ earlier, ∀ item ∈ pivoted.items, (comparing element item).isLE)
    (divided : Divided comparing pivoted parts) :
    (if parts.first.isEmpty then do
        let parts ← pivoted.divideAbove
        return parts.first ++ (← sortByPivots pivots none parts.second)
      else do
        let second ← sortByPivots pivots (some pivoted.pivot) parts.second
        let first ← sortByPivots pivots earlier parts.first
        return first ++ second).Finds comparing (StablySorted comparing pivoted.items) := by
  split
  · rename_i empty
    rw [List.isEmpty_iff] at empty
    have pivotLeast : ∀ item ∈ pivoted.items, (comparing pivoted.pivot item).isLE := by
      rcases divided with rfl | ⟨_, pivotLeast⟩
      · intro item member
        refine isLE_of_not_below (Bool.eq_false_iff.mpr fun itemBelow => ?_)
        have inFirst : item ∈ (Parts.of (below comparing pivoted.pivot) pivoted.items).first :=
          List.mem_filter.mpr ⟨member, itemBelow⟩
        exact List.not_mem_nil (empty ▸ inFirst)
      · exact pivotLeast
    rw [Finds.bind_iff]
    refine (Pivoted.finds_divideAbove pivoted).mono ?_
    rintro _ rfl
    rw [Finds.bind_iff]
    exact (sorts (by simp)).mono fun second => stablySorted_notAbove pivotLeast
  · rename_i nonempty
    rcases divided with rfl | ⟨empty, _⟩
    · have secondBehind : ∀ element ∈ some pivoted.pivot,
          ∀ item ∈ (Parts.of (below comparing pivoted.pivot) pivoted.items).second,
            (comparing element item).isLE := by
        rintro element same item member
        obtain rfl : pivoted.pivot = element := Option.some_inj.mp same
        have notBelow := (List.mem_filter.mp member).2
        rw [Bool.not_eq_true'] at notBelow
        exact isLE_of_not_below notBelow
      have firstBehind : ∀ element ∈ earlier,
          ∀ item ∈ (Parts.of (below comparing pivoted.pivot) pivoted.items).first,
            (comparing element item).isLE := fun element same item member =>
        behind element same item (List.mem_filter.mp member).1
      rw [Finds.bind_iff]
      refine (sorts secondBehind).mono fun second secondSorted => ?_
      rw [Finds.bind_iff]
      exact (sorts firstBehind).mono fun first firstSorted =>
        stablySorted_below firstSorted secondSorted
    · exact absurd (List.isEmpty_iff.mpr empty) nonempty

theorem finds_sortByPivots (pivots : Nat) {earlier : Option α} {items : List α}
    (behind : ∀ element ∈ earlier, ∀ item ∈ items, (comparing element item).isLE) :
    (sortByPivots pivots earlier items).Finds comparing (StablySorted comparing items) := by
  induction pivots generalizing earlier items with
  | zero =>
    unfold sortByPivots
    split
    · exact finds_sortBlock items
    · exact finds_sortByRuns true finds_insertion items
  | succ pivots inductionHypothesis =>
    unfold sortByPivots
    split
    · exact finds_sortBlock items
    · rw [Finds.bind_iff]
      refine (Pivoted.finds_choose items _).mono ?_
      rintro pivoted rfl
      rw [Finds.bind_iff]
      refine (finds_repeats behind pivoted.pivot).mono fun repeated least => ?_
      dsimp only
      split
      · rename_i yes
        have undivided : Divided comparing pivoted ⟨[], pivoted.items⟩ := Or.inr ⟨rfl, least yes⟩
        exact finds_sortParts inductionHypothesis behind undivided
      · rw [Finds.bind_iff]
        exact (Pivoted.finds_divideBelow pivoted).mono fun parts divided =>
          finds_sortParts inductionHypothesis behind (Or.inl divided)

theorem finds_quicksort : Sorts comparing (quicksort : List α → Strategy α (List α)) :=
  fun _ => finds_sortByPivots _ (by simp)

/-- The sort sorts stably, whatever the length of the list. -/
theorem finds_sort : Sorts comparing (sort : List α → Strategy α (List α)) := by
  intro items
  unfold sort
  split
  · exact finds_insertion items
  · exact finds_sortByRuns _ finds_quicksort items

end

end StagedQuery.StableSort
