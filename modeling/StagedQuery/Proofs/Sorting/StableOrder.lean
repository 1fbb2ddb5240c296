/-
This file says what it means to sort a list stably.

A stable sort ascends and leaves equal elements in the order in which it found
them. The second part is stated class by class: for every element, the sublist
of the elements that compare equal to it is the same before and after. So no
two stable sorts of a list differ, and the merge sort of the standard library is
the one there is.
-/

namespace StagedQuery

open Std

variable {α : Type} {comparing : α → α → Ordering}

/-! ### Comparisons -/

/-- Of two elements one is not greater than the other. -/
theorem isLE_total [OrientedCmp comparing] (left right : α) :
    (comparing left right).isLE || (comparing right left).isLE := by
  have swapped : comparing right left = (comparing left right).swap := OrientedCmp.eq_swap
  rw [swapped]
  cases comparing left right <;> rfl

/-- The answer no means that the elements are in order the other way round. -/
theorem isLE_of_not_isLT [OrientedCmp comparing] {left right : α}
    (notLess : ¬(comparing left right).isLT) : (comparing right left).isLE := by
  rw [← OrientedCmp.isGE_eq_isLE, Ordering.isGE_iff_ne_lt]
  exact fun less => notLess (Ordering.isLT_iff_eq_lt.mpr less)

/-! ### Rearrangements -/

/-- The elements of a list that compare equal to an element. -/
def equals (comparing : α → α → Ordering) (element : α) (items : List α) : List α :=
  items.filter fun item => (comparing element item).isEq

/-- Two lists that differ at most in how unequal elements stand to one another. -/
def Rearranged (comparing : α → α → Ordering) (items other : List α) : Prop :=
  ∀ element, equals comparing element items = equals comparing element other

theorem equals_append (element : α) (front back : List α) :
    equals comparing element (front ++ back) =
      equals comparing element front ++ equals comparing element back := List.filter_append ..

theorem equals_cons_of_eq {element first : α} (same : comparing element first = .eq)
    (rest : List α) :
    equals comparing element (first :: rest) = first :: equals comparing element rest :=
  List.filter_cons_of_pos (by rw [same]; rfl)

theorem equals_cons_of_ne {element first : α} (different : comparing element first ≠ .eq)
    (rest : List α) : equals comparing element (first :: rest) = equals comparing element rest :=
  List.filter_cons_of_neg (by rwa [Ordering.isEq_iff_eq_eq])

theorem mem_equals {element item : α} {items : List α} :
    item ∈ equals comparing element items ↔ item ∈ items ∧ comparing element item = .eq := by
  rw [equals, List.mem_filter, Ordering.isEq_iff_eq_eq]

namespace Rearranged

theorem refl (items : List α) : Rearranged comparing items items := fun _ => rfl

theorem symm {items other : List α} (rearranged : Rearranged comparing items other) :
    Rearranged comparing other items := fun element => (rearranged element).symm

theorem trans {items other third : List α} (first : Rearranged comparing items other)
    (second : Rearranged comparing other third) : Rearranged comparing items third :=
  fun element => (first element).trans (second element)

theorem append {front front' back back' : List α} (fronts : Rearranged comparing front front')
    (backs : Rearranged comparing back back') :
    Rearranged comparing (front ++ back) (front' ++ back') := by
  intro element
  rw [equals_append, equals_append, fronts element, backs element]

/-- The first elements of two lists can be dropped if they are the same. -/
theorem of_cons {first : α} {items other : List α}
    (rearranged : Rearranged comparing (first :: items) (first :: other)) :
    Rearranged comparing items other := by
  intro element
  have same := rearranged element
  by_cases equal : comparing element first = .eq
  · rw [equals_cons_of_eq equal, equals_cons_of_eq equal] at same
    exact (List.cons.inj same).2
  · rwa [equals_cons_of_ne equal, equals_cons_of_ne equal] at same

variable [TransCmp comparing]

/-- Rearranging neither loses an element nor adds one. -/
theorem mem_iff {items other : List α} (rearranged : Rearranged comparing items other) {item : α} :
    item ∈ items ↔ item ∈ other := by
  have member (list : List α) : item ∈ list ↔ item ∈ equals comparing item list := by
    rw [mem_equals, and_iff_left ReflCmp.compare_self]
  rw [member items, member other, rearranged item]

/-- Two stretches change places if no element of one equals an element of the other. -/
theorem swap {front back : List α}
    (different : ∀ first ∈ front, ∀ second ∈ back, comparing first second ≠ .eq) :
    Rearranged comparing (front ++ back) (back ++ front) := by
  intro element
  rw [equals_append, equals_append]
  cases inFront : equals comparing element front with
  | nil => rw [List.nil_append, List.append_nil]
  | cons first _ =>
    have firstMember : first ∈ equals comparing element front := by
      rw [inFront]
      exact List.mem_cons_self
    have backEmpty : equals comparing element back = [] := by
      refine List.eq_nil_iff_forall_not_mem.mpr fun second secondMember => ?_
      rw [mem_equals] at firstMember secondMember
      exact different first firstMember.1 second secondMember.1
        (TransCmp.eq_trans (OrientedCmp.eq_symm firstMember.2) secondMember.2)
    rw [backEmpty, List.append_nil, List.nil_append]

/-- A list can be parted by a test that no two equal elements answer differently. -/
theorem partition (test : α → Bool) {items : List α}
    (different : ∀ first ∈ items, ∀ second ∈ items, test first = true → test second = false →
      comparing first second ≠ .eq) :
    Rearranged comparing items (items.filter test ++ items.filter fun item => !test item) := by
  induction items with
  | nil => exact .refl []
  | cons head rest inductionHypothesis =>
    have restParted := inductionHypothesis fun first firstMember second secondMember =>
      different first (List.mem_cons_of_mem head firstMember) second
        (List.mem_cons_of_mem head secondMember)
    have headFirst := (Rearranged.refl [head]).append restParted
    cases answer : test head with
    | true => rwa [List.filter_cons_of_pos answer, List.filter_cons_of_neg (by simp [answer])]
    | false =>
      rw [List.filter_cons_of_neg (by simp [answer]), List.filter_cons_of_pos (by simp [answer])]
      have passed :
          Rearranged comparing ([head] ++ rest.filter test) (rest.filter test ++ [head]) := by
        refine .symm (.swap fun first firstMember second same => ?_)
        obtain ⟨firstMember, firstAnswer⟩ := List.mem_filter.mp firstMember
        rw [List.eq_of_mem_singleton same]
        exact different first (List.mem_cons_of_mem head firstMember) head List.mem_cons_self
          firstAnswer answer
      have moved := passed.append (.refl (rest.filter fun item => !test item))
      rw [List.append_assoc, List.append_assoc] at moved
      exact headFirst.trans moved

/-- A list without equal elements can be turned around. -/
theorem reverse {items : List α}
    (different : items.Pairwise fun earlier later => comparing earlier later ≠ .eq) :
    Rearranged comparing items.reverse items := by
  induction items with
  | nil => exact .refl []
  | cons first rest inductionHypothesis =>
    obtain ⟨firstDifferent, restDifferent⟩ := List.pairwise_cons.mp different
    have moved : Rearranged comparing ([first] ++ rest.reverse) (rest.reverse ++ [first]) :=
      .swap fun item same other member =>
        List.eq_of_mem_singleton same ▸ firstDifferent other (List.mem_reverse.mp member)
    rw [List.reverse_cons]
    exact moved.symm.trans ((Rearranged.refl [first]).append (inductionHypothesis restDifferent))

end Rearranged

/-! ### Ascending lists -/

/-- A list in which no element stands behind a greater one. -/
def Ascending (comparing : α → α → Ordering) (items : List α) : Prop :=
  items.Pairwise fun earlier later => (comparing earlier later).isLE

theorem ascending_append {front back : List α} :
    Ascending comparing (front ++ back) ↔
      Ascending comparing front ∧ Ascending comparing back ∧
        ∀ first ∈ front, ∀ second ∈ back, (comparing first second).isLE := List.pairwise_append

theorem ascending_cons {first : α} {rest : List α} :
    Ascending comparing (first :: rest) ↔
      (∀ item ∈ rest, (comparing first item).isLE) ∧ Ascending comparing rest := List.pairwise_cons

/-- Ascending lists are equal if they are rearrangements of each other. -/
theorem Ascending.eq_of_rearranged [TransCmp comparing] {items other : List α}
    (ascending : Ascending comparing items) (otherAscending : Ascending comparing other)
    (rearranged : Rearranged comparing items other) : items = other := by
  induction items generalizing other with
  | nil =>
    refine (List.eq_nil_iff_forall_not_mem.mpr fun item member => ?_).symm
    exact List.not_mem_nil (rearranged.mem_iff.mpr member)
  | cons first rest inductionHypothesis =>
    cases other with
    | nil => exact absurd (rearranged.mem_iff.mp List.mem_cons_self) List.not_mem_nil
    | cons otherFirst otherRest =>
      rw [ascending_cons] at ascending otherAscending
      -- Each first element occurs in the other list, so neither comes before the other.
      have le : (comparing first otherFirst).isLE := by
        rcases List.mem_cons.mp (rearranged.mem_iff.mpr List.mem_cons_self) with rfl | member
        · exact ReflCmp.isLE_rfl
        · exact ascending.1 otherFirst member
      have ge : (comparing otherFirst first).isLE := by
        rcases List.mem_cons.mp (rearranged.mem_iff.mp List.mem_cons_self) with rfl | member
        · exact ReflCmp.isLE_rfl
        · exact otherAscending.1 first member
      have classes := rearranged first
      rw [equals_cons_of_eq ReflCmp.compare_self,
        equals_cons_of_eq (OrientedCmp.isLE_antisymm le ge)] at classes
      obtain rfl : first = otherFirst := (List.cons.inj classes).1
      rw [inductionHypothesis ascending.2 otherAscending.2 rearranged.of_cons]

/-! ### Stable sorts -/

/-- What a stable sort makes of a list. -/
structure StablySorted (comparing : α → α → Ordering) (items sorted : List α) : Prop where
  ascending : Ascending comparing sorted
  rearranged : Rearranged comparing items sorted

/-- The stable sort of a list. -/
def mergeSorted (comparing : α → α → Ordering) (items : List α) : List α :=
  items.mergeSort fun left right => (comparing left right).isLE

namespace StablySorted

theorem of_ascending {items : List α} (ascending : Ascending comparing items) :
    StablySorted comparing items items := ⟨ascending, .refl items⟩

theorem nil : StablySorted comparing [] [] := of_ascending List.Pairwise.nil

theorem singleton (item : α) : StablySorted comparing [item] [item] :=
  of_ascending (List.pairwise_singleton ..)

/-- Sorting does not depend on how unequal elements stood to one another. -/
theorem of_rearranged {items other sorted : List α} (rearranged : Rearranged comparing items other)
    (stablySorted : StablySorted comparing other sorted) : StablySorted comparing items sorted :=
  ⟨stablySorted.ascending, rearranged.trans stablySorted.rearranged⟩

variable [TransCmp comparing]

theorem mem_iff {items sorted : List α} (stablySorted : StablySorted comparing items sorted)
    {item : α} : item ∈ sorted ↔ item ∈ items := stablySorted.rearranged.mem_iff.symm

/-- Two lists can be sorted apart if no element of the first is greater than one of the second. -/
theorem append {front front' back back' : List α} (fronts : StablySorted comparing front front')
    (backs : StablySorted comparing back back')
    (le : ∀ first ∈ front, ∀ second ∈ back, (comparing first second).isLE) :
    StablySorted comparing (front ++ back) (front' ++ back') where
  ascending := ascending_append.mpr ⟨fronts.ascending, backs.ascending,
    fun first firstMember second secondMember =>
      le first (fronts.mem_iff.mp firstMember) second (backs.mem_iff.mp secondMember)⟩
  rearranged := fronts.rearranged.append backs.rearranged

/-- An element that is not less than any of a sorted list belongs at its end. -/
theorem concat {items sorted : List α} {element : α}
    (stablySorted : StablySorted comparing items sorted)
    (le : ∀ item ∈ items, (comparing item element).isLE) :
    StablySorted comparing (items ++ [element]) (sorted ++ [element]) :=
  stablySorted.append (.singleton element) fun item member _ same =>
    List.eq_of_mem_singleton same ▸ le item member

/-- An element that is not greater than any of a sorted list belongs at its head. -/
theorem cons {items sorted : List α} {element : α}
    (stablySorted : StablySorted comparing items sorted)
    (le : ∀ item ∈ items, (comparing element item).isLE) :
    StablySorted comparing (element :: items) (element :: sorted) :=
  (StablySorted.singleton element).append stablySorted fun _ same item member =>
    List.eq_of_mem_singleton same ▸ le item member

/-- A list has only one stable sort. -/
theorem unique {items sorted sorted' : List α} (first : StablySorted comparing items sorted)
    (second : StablySorted comparing items sorted') : sorted = sorted' :=
  first.ascending.eq_of_rearranged second.ascending (first.rearranged.symm.trans second.rearranged)

/-- The merge sort keeps every class of equal elements as it is. -/
theorem mergeSorted (items : List α) :
    StablySorted comparing items (StagedQuery.mergeSorted comparing items) where
  ascending := List.pairwise_mergeSort (fun _ _ _ => TransCmp.isLE_trans) isLE_total items
  rearranged := by
    intro element
    have tied : (equals comparing element items).Pairwise
        fun left right => (comparing left right).isLE := by
      refine List.pairwise_of_forall_mem_list fun left leftMember right rightMember => ?_
      rw [mem_equals] at leftMember rightMember
      rw [TransCmp.eq_trans (OrientedCmp.eq_symm leftMember.2) rightMember.2]
      rfl
    have kept := (List.sublist_mergeSort (fun _ _ _ => TransCmp.isLE_trans) isLE_total tied
      List.filter_sublist).filter fun item => (comparing element item).isEq
    rw [equals, List.filter_filter] at kept
    simp only [Bool.and_self] at kept
    exact kept.eq_of_length ((List.mergeSort_perm items _).filter _).length_eq.symm

theorem eq_mergeSorted {items sorted : List α}
    (stablySorted : StablySorted comparing items sorted) :
    sorted = StagedQuery.mergeSorted comparing items := stablySorted.unique (mergeSorted items)

/-- A stable sort is a permutation. -/
theorem perm {items sorted : List α} (stablySorted : StablySorted comparing items sorted) :
    sorted.Perm items := by
  rw [stablySorted.eq_mergeSorted]
  exact List.mergeSort_perm ..

theorem length_eq {items sorted : List α} (stablySorted : StablySorted comparing items sorted) :
    sorted.length = items.length := stablySorted.perm.length_eq

end StablySorted

end StagedQuery
