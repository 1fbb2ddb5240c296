/-
This file proves that a sort by a comparator depends on the comparisons that it
makes, and on nothing else that the comparator does.

All comparisons are between elements of the list, and however they come out, a sort
that succeeds gives back these elements. A comparator therefore only has to order
these, and may fail on any others. Its order of the list is an order of everything
if the other elements are put in one place in front, which is how what holds of
orders is brought to bear on it.
-/

import Mathlib.Data.List.Basic
import StagedQuery.Proofs.Sorting.Comparators
import StagedQuery.Proofs.Sorting.Pivots
import StagedQuery.Proofs.Sorting.Questions

namespace StagedQuery

open Std

variable {α β : Type}

/-! ### The first question -/

namespace StableSort

theorem nearSquareRoot_le {number : Nat} (large : 2 ≤ number) : nearSquareRoot number ≤ number := by
  have power : Nat.pow 2 ((number.log2 + 1) / 2) ≤ number := by
    have half : (number.log2 + 1) / 2 ≤ number.log2 := by
      have log2Positive : 1 ≤ number.log2 := (Nat.le_log2 (by omega)).mpr (by omega)
      omega
    exact Nat.le_trans (Nat.pow_le_pow_right (by decide) half) (Nat.log2_self_le (by omega))
  have quotient := Nat.div_le_self number (Nat.pow 2 ((number.log2 + 1) / 2))
  unfold nearSquareRoot
  dsimp only
  omega

theorem usefulLength_le (length : Nat) : usefulLength length ≤ length := by
  unfold usefulLength
  split
  · omega
  · exact nearSquareRoot_le (by omega)

/-- Where there are two elements, the second is compared with the first before anything else. -/
theorem exists_sort_eq_ask (first second : α) (rest : List α) :
    ∃ next, sort (first :: second :: rest) = .ask second first next := by
  unfold sort
  split
  · exact ⟨_, rfl⟩
  · have long := Nat.not_lt.mpr (usefulLength_le (first :: second :: rest).length)
    rw [sortByRuns, Plan.carryOut, Plan.cut, Run.cut, if_neg long, Run.find]
    exact ⟨_, rfl⟩

end StableSort

/-! ### Orders of a list -/

/-- An order of a list is the restriction of an order of everything. -/
theorem exists_transCmp_of_subtype {comparing : α → α → Ordering} {items : List α}
    (transitive : TransCmp fun left right : {element // element ∈ items} => comparing left right) :
    ∃ extended : α → α → Ordering, TransCmp extended ∧
      ∀ left ∈ items, ∀ right ∈ items, extended left right = comparing left right := by
  classical
  let order : Ord {element // element ∈ items} := ⟨fun left right => comparing left right⟩
  have lawful : TransOrd {element // element ∈ items} := transitive
  let place (element : α) : Option {element // element ∈ items} :=
    if member : element ∈ items then some ⟨element, member⟩ else none
  refine ⟨compareOn place, inferInstance, fun left leftMember right rightMember => ?_⟩
  show Ord.compare (place left) (place right) = comparing left right
  simp only [place, dif_pos leftMember, dif_pos rightMember]
  rfl

/-- Stable sorts by two orders are the same where the orders agree on all elements. -/
theorem mergeSorted_congr {first second : α → α → Ordering} {items : List α}
    (agree : ∀ left ∈ items, ∀ right ∈ items, first left right = second left right) :
    mergeSorted first items = mergeSorted second items := by
  have same := List.map_mergeSort (r := fun left right => (first left right).isLE)
    (s := fun left right => (second left right).isLE) (f := id) fun left leftMember right member =>
      congrArg Ordering.isLE (agree left leftMember right member)
  rwa [List.map_id, List.map_id] at same

/-! ### Comparisons -/

namespace Comparator

variable [Ord α] {comparator : Comparator α}

/-- The pairs that a comparator is called on when it follows a strategy, up to the first that it
fails on. -/
def comparisons (comparator : Comparator α) : Strategy α β → List (α × α)
  | .done _ | .contradicted => []
  | .ask left right next =>
    (left, right) ::
      match (comparator.compare left right).result with
      | .ok comparison => comparator.comparisons (next comparison.isLT)
      | .error _ => []

/-- What is logged is what the comparator logs when it is called. -/
theorem trace_follow (comparator : Comparator α) (strategy : Strategy α β) :
    (comparator.follow strategy).trace = (comparator.comparisons strategy).flatMap fun pair =>
      (comparator.compare pair.1 pair.2).trace := by
  induction strategy with
  | done value => rfl
  | ask left right next inductionHypothesis =>
    rw [follow, comparisons, List.flatMap_cons]
    cases ended : (comparator.compare left right).result with
    | error fault =>
      rw [Outcome.bind_of_error ended]
      exact (List.append_nil _).symm
    | ok comparison =>
      rw [Outcome.bind_of_ok ended, Outcome.trace_behind, inductionHypothesis]
  | contradicted => rfl

theorem mem_of_mem_comparisons {known : α → Prop} {goal : β → Prop} {strategy : Strategy α β}
    (asks : strategy.AsksAmong known goal) :
    ∀ pair ∈ comparator.comparisons strategy, known pair.1 ∧ known pair.2 := by
  induction strategy with
  | done value => exact fun _ => nofun
  | ask left right next inductionHypothesis =>
    obtain ⟨leftKnown, rightKnown, nextAsks⟩ := asks
    rw [comparisons, List.forall_mem_cons]
    refine ⟨⟨leftKnown, rightKnown⟩, ?_⟩
    cases (comparator.compare left right).result with
    | error fault => exact fun _ => nofun
    | ok comparison => exact inductionHypothesis comparison.isLT (nextAsks comparison.isLT)
  | contradicted => exact fun _ => nofun

/-- If a comparator comes to a value when it follows a strategy, the value reaches the strategy's
goal. -/
theorem goal_of_follow {known : α → Prop} {goal : β → Prop} {strategy : Strategy α β}
    (asks : strategy.AsksAmong known goal) {value : β}
    (ended : (comparator.follow strategy).result = .ok value) : goal value := by
  induction strategy with
  | done found =>
    obtain rfl : found = value := Except.ok.inj ended
    exact asks
  | ask left right next inductionHypothesis =>
    obtain ⟨comparison, _, followed⟩ := Outcome.exists_ok_of_bind_ok ended
    exact inductionHypothesis comparison.isLT (asks.2.2 comparison.isLT) followed
  | contradicted => nomatch ended

/-- A comparator that gives the same results where it is called follows the same way. -/
theorem follow_congr {other : Comparator α} {strategy : Strategy α β}
    (agree : ∀ pair ∈ comparator.comparisons strategy,
      (other.compare pair.1 pair.2).result = (comparator.compare pair.1 pair.2).result) :
    other.comparisons strategy = comparator.comparisons strategy ∧
      (other.follow strategy).result = (comparator.follow strategy).result := by
  induction strategy with
  | done value => exact ⟨rfl, rfl⟩
  | ask left right next inductionHypothesis =>
    rw [comparisons, List.forall_mem_cons] at agree
    obtain ⟨same, agree⟩ := agree
    dsimp only at same
    rw [follow, follow, comparisons, comparisons, same]
    cases ended : (comparator.compare left right).result with
    | error fault =>
      rw [Outcome.bind_of_error ended, Outcome.bind_of_error (same.trans ended)]
      exact ⟨rfl, rfl⟩
    | ok comparison =>
      rw [ended] at agree
      obtain ⟨sameComparisons, sameResult⟩ := inductionHypothesis comparison.isLT agree
      rw [Outcome.bind_of_ok ended, Outcome.bind_of_ok (same.trans ended), Outcome.result_behind,
        Outcome.result_behind]
      exact ⟨congrArg _ sameComparisons, sameResult⟩
  | contradicted => exact ⟨rfl, rfl⟩

/-- A comparator that answers for known elements as an order does leads a strategy that asks about
no others to what the order finds. -/
theorem follow_of_finds_among {known : α → Prop} {comparing : α → α → Ordering}
    (answers : ∀ left right, known left → known right →
      (comparator.compare left right).result = .ok (comparing left right))
    {strategy : Strategy α β} {goal reached : β → Prop}
    (asks : strategy.AsksAmong known reached) (found : strategy.Finds comparing goal) :
    ∃ value, (comparator.follow strategy).result = .ok value ∧ goal value := by
  induction strategy with
  | done value => exact ⟨value, rfl, found⟩
  | ask left right next inductionHypothesis =>
    obtain ⟨leftKnown, rightKnown, nextAsks⟩ := asks
    rw [follow, Outcome.bind_of_ok (answers left right leftKnown rightKnown),
      Outcome.result_behind]
    exact inductionHypothesis _ (nextAsks _) found
  | contradicted => exact found.elim

/-! ### The comparisons of a sort -/

variable {items : List α}

/-- The pairs that a comparator is called on when it sorts a list. -/
def comparisonsOf (comparator : Comparator α) (items : List α) : List (α × α) :=
  comparator.comparisons (StableSort.sort items)

theorem mem_of_mem_comparisonsOf :
    ∀ pair ∈ comparator.comparisonsOf items, pair.1 ∈ items ∧ pair.2 ∈ items :=
  mem_of_mem_comparisons (StableSort.asks_sort fun _ => id)

/-- A sort that succeeds gives its list in some order, whatever the comparator is. -/
theorem perm_of_sort {sorted : List α} (ended : (comparator.sort items).result = .ok sorted) :
    sorted.Perm items :=
  goal_of_follow (StableSort.asks_sort fun _ => id) ended

/-- Fewer than two elements are not compared. -/
theorem comparisonsOf_eq_nil (few : items.length < 2) : comparator.comparisonsOf items = [] := by
  match items with
  | [] => rfl
  | [_] => rfl
  | _ :: _ :: _ => exact absurd few (by simp)

theorem trace_sort (comparator : Comparator α) (items : List α) :
    (comparator.sort items).trace = (comparator.comparisonsOf items).flatMap fun pair =>
      (comparator.compare pair.1 pair.2).trace :=
  comparator.trace_follow _

/-- Comparators that give the same results on a list sort it alike. -/
theorem result_sort_congr {other : Comparator α}
    (agree : ∀ left ∈ items, ∀ right ∈ items,
      (other.compare left right).result = (comparator.compare left right).result) :
    other.comparisonsOf items = comparator.comparisonsOf items ∧
      (other.sort items).result = (comparator.sort items).result :=
  follow_congr fun pair compared =>
    have member := mem_of_mem_comparisonsOf pair compared
    agree pair.1 member.1 pair.2 member.2

/-- Comparators that also log the same on a list log the same when they sort it. -/
theorem sort_congr {other : Comparator α}
    (agree : ∀ left ∈ items, ∀ right ∈ items,
      other.compare left right = comparator.compare left right) :
    other.sort items = comparator.sort items := by
  have results : ∀ left ∈ items, ∀ right ∈ items,
      (other.compare left right).result = (comparator.compare left right).result :=
    fun left leftMember right rightMember =>
      congrArg Outcome.result (agree left leftMember right rightMember)
  obtain ⟨sameComparisons, sameResult⟩ := result_sort_congr results
  refine Outcome.ext ?_ sameResult
  rw [trace_sort, trace_sort, sameComparisons]
  refine List.flatMap_congr fun pair compared => ?_
  have member := mem_of_mem_comparisonsOf pair compared
  rw [agree pair.1 member.1 pair.2 member.2]

/-- A comparator that fails whenever it compares a later element with an earlier one fails at once,
and the sort fails with it. -/
theorem exists_fault_of_sort (several : 2 ≤ items.length)
    (fails : items.Pairwise fun earlier later =>
      ∃ fault, (comparator.compare later earlier).result = .error fault) :
    ∃ left ∈ items, ∃ right ∈ items, ∃ fault,
      (comparator.compare left right).result = .error fault ∧
        (comparator.sort items).result = .error fault := by
  match items with
  | [] | [_] => exact absurd several (by simp)
  | first :: second :: rest =>
    obtain ⟨fault, failed⟩ := (List.pairwise_cons.mp fails).1 second List.mem_cons_self
    obtain ⟨next, asked⟩ := StableSort.exists_sort_eq_ask first second rest
    refine ⟨second, by simp, first, by simp, fault, failed, ?_⟩
    rw [sort, asked, follow, Outcome.bind_of_error failed]

/-! ### Comparators that order a list -/

/-- A comparator that never fails on the elements of a list and orders these, some of them perhaps
equally. -/
structure IsTotalPreorderOn (comparator : Comparator α) (items : List α) : Prop where
  succeeds : ∀ left ∈ items, ∀ right ∈ items,
    (comparator.compare left right).result = .ok (comparator.ordering left right)
  transitive : TransCmp fun left right : {element // element ∈ items} =>
    comparator.ordering left right

/-- A comparator is a total preorder on a list if it answers there as one does. -/
theorem isTotalPreorderOn_of_answers {comparing : α → α → Ordering} [TransCmp comparing]
    (answers : ∀ left ∈ items, ∀ right ∈ items,
      (comparator.compare left right).result = .ok (comparing left right)) :
    comparator.IsTotalPreorderOn items := by
  have same : ∀ left ∈ items, ∀ right ∈ items,
      comparator.ordering left right = comparing left right := by
    intro left leftMember right rightMember
    rw [ordering, answers left leftMember right rightMember]
    rfl
  constructor
  case succeeds =>
    intro left leftMember right rightMember
    rw [answers left leftMember right rightMember, same left leftMember right rightMember]
  case transitive =>
    have restricted : (fun left right : {element // element ∈ items} =>
        comparator.ordering left right) =
        fun left right : {element // element ∈ items} => comparing left right := by
      funext left right
      exact same left left.2 right right.2
    rw [restricted]
    exact {
      eq_swap := OrientedCmp.eq_swap
      isLE_trans := TransCmp.isLE_trans }

/-- Sorting a list by a comparator that orders it succeeds and gives the stable sort. -/
theorem result_sort_of_isTotalPreorderOn (lawful : comparator.IsTotalPreorderOn items) :
    (comparator.sort items).result = .ok (mergeSorted comparator.ordering items) := by
  obtain ⟨extended, transitive, agree⟩ := exists_transCmp_of_subtype lawful.transitive
  have answers (left right : α) (leftMember : left ∈ items) (rightMember : right ∈ items) :
      (comparator.compare left right).result = .ok (extended left right) := by
    rw [lawful.succeeds left leftMember right rightMember,
      agree left leftMember right rightMember]
  have found : (StableSort.sort items).Finds extended (StablySorted extended items) :=
    StableSort.finds_sort items
  obtain ⟨sorted, result, stablySorted⟩ :=
    follow_of_finds_among answers (StableSort.asks_sort fun _ => id) found
  rw [sort, result, stablySorted.eq_mergeSorted, mergeSorted_congr agree]

/-- Sorting by a comparator that orders everything succeeds and gives the stable sort. -/
theorem result_sort {comparator : Comparator α} (lawful : comparator.IsTotalPreorder)
    (items : List α) :
    (comparator.sort items).result = .ok (mergeSorted comparator.ordering items) :=
  have := lawful.transitive
  result_sort_of_isTotalPreorderOn
    (isTotalPreorderOn_of_answers fun left _ right _ => lawful.succeeds left right)

/-- A comparator that logs nothing and answers as an order does only gives the stable sort. -/
theorem sort_of_silent {comparing : α → α → Ordering} [TransCmp comparing]
    (answers : ∀ left right, comparator.compare left right = pure (comparing left right))
    (items : List α) : comparator.sort items = pure (mergeSorted comparing items) := by
  have same : comparator.ordering = comparing := by
    funext left right
    rw [ordering, answers]
    rfl
  have lawful : comparator.IsTotalPreorderOn items :=
    isTotalPreorderOn_of_answers fun left _ right _ => congrArg Outcome.result (answers left right)
  refine Outcome.ext ?_ ?_
  · rw [trace_sort, List.flatMap_eq_nil_iff.mpr fun pair _ => by rw [answers, Outcome.trace_pure]]
    rfl
  · rw [result_sort_of_isTotalPreorderOn lawful, same]
    rfl

/-- The natural comparator sorts as the natural order does and can be followed step by step. -/
theorem mergeSorted_of_sort_natural [TransOrd α] {sorted : List α}
    (followed : (natural.sort items).result = .ok sorted) :
    mergeSorted Ord.compare items = sorted := by
  rw [sort_of_silent fun _ _ => rfl] at followed
  exact Except.ok.inj followed

end Comparator

/-- Sorting that succeeds gives the list in some order. -/
theorem Sorting.perm_of_apply [Ord α] {sorting : Sorting α} {items sorted : List α}
    (ended : (sorting.apply items).result = .ok sorted) : sorted.Perm items := by
  cases sorting with
  | unsorted =>
    obtain rfl : items = sorted := Except.ok.inj ended
    exact .refl items
  | natural =>
    obtain rfl : mergeSorted compare items = sorted := Except.ok.inj ended
    exact List.mergeSort_perm ..
  | byComparator comparator => exact Comparator.perm_of_sort ended

/-- What a strategy makes of a list if its comparator, where it has one, does not fail: the list is
left alone or sorted stably. -/
def Sorting.arranged [Ord α] (sorting : Sorting α) (items : List α) : List α :=
  sorting.ordering?.elim items fun ordering => mergeSorted ordering items

/-- A lawful strategy succeeds. -/
theorem Sorting.result_apply [Ord α] {sorting : Sorting α} (lawful : sorting.IsLawful)
    (items : List α) : (sorting.apply items).result = .ok (sorting.arranged items) := by
  cases sorting with
  | unsorted => rfl
  | natural => rfl
  | byComparator comparator => exact Comparator.result_sort (lawful comparator rfl) items

/-- A lawful strategy that sorts gives the stable sort. -/
theorem Sorting.result_apply_of_sorts [Ord α] {sorting : Sorting α} {ordering : α → α → Ordering}
    (lawful : sorting.IsLawful) (sorts : sorting.ordering? = some ordering) (items : List α) :
    (sorting.apply items).result = .ok (mergeSorted ordering items) := by
  rw [result_apply lawful, arranged, sorts]
  rfl

end StagedQuery
