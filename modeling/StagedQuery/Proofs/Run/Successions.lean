/-
This file proves that orderings which are carried out one after the other come to one
ordering, in which the last of them counts most.

A stable sort leaves what it holds for equal in the order in which it was, and that order
is the one of the sort before. The elements that two orders hold for equal are those that
the one holds for equal among those that the other does, so their order in the list is
kept by both sorts. What is ordered in this way is therefore the stable sort by the
orders in lexicographic combination, and there is only one.
-/

import StagedQuery.Proofs.Run.Ordering

namespace StagedQuery

open Std

variable {α : Type}

/-! ### One order behind another -/

section

variable {major minor : α → α → Ordering}

/-- What two orders hold for equal is what one of them does among what the other does. -/
theorem equals_compareLex (element : α) (items : List α) :
    equals (compareLex major minor) element items =
      equals minor element (equals major element items) := by
  unfold equals
  rw [List.filter_filter]
  refine List.filter_congr fun item _ => ?_
  rw [compareLex, Ordering.isEq_then, Bool.and_comm]

theorem equals_comm (element : α) (items : List α) :
    equals minor element (equals major element items) =
      equals major element (equals minor element items) := by
  unfold equals
  rw [List.filter_filter, List.filter_filter]
  simp only [Bool.and_comm]

/-- A list that is sorted stably by one order and then by another is sorted stably by both, the
later one first. -/
theorem StablySorted.andThen [TransCmp major] {items middle sorted : List α}
    (earlier : StablySorted minor items middle) (later : StablySorted major middle sorted) :
    StablySorted (compareLex major minor) items sorted := by
  constructor
  case ascending =>
    refine List.pairwise_iff_forall_sublist.mpr fun {left right} inOrder => ?_
    have le := List.pairwise_iff_forall_sublist.mp later.ascending inOrder
    rw [compareLex, Ordering.isLE_then_iff_or]
    refine (Ordering.isLE_iff_eq_lt_or_eq_eq.mp le).imp_right fun tied => ⟨tied, ?_⟩
    -- Two elements that the later order holds for equal stand as the earlier sort has left them.
    have together : [left, right].Sublist (equals major left sorted) := by
      have kept : equals major left [left, right] = [left, right] := by
        rw [equals_cons_of_eq ReflCmp.compare_self, equals_cons_of_eq tied]
        rfl
      rw [← kept]
      exact inOrder.filter _
    rw [← later.rearranged left] at together
    exact List.pairwise_iff_forall_sublist.mp earlier.ascending
      (together.trans List.filter_sublist)
  case rearranged =>
    intro element
    rw [equals_compareLex, equals_compareLex, ← later.rearranged element, equals_comm,
      earlier.rearranged element, equals_comm]

theorem mergeSorted_mergeSorted [TransCmp major] [TransCmp minor] (items : List α) :
    mergeSorted major (mergeSorted minor items) = mergeSorted (compareLex major minor) items :=
  ((StablySorted.mergeSorted items).andThen (.mergeSorted _)).eq_mergeSorted

end

/-! ### One comparator behind another -/

namespace Comparator

variable [Ord α]

/-- Compares by one comparator, and by another one what that holds for equal. -/
def thenBy (major minor : Comparator α) : Comparator α :=
  .of fun left right => do
    match ← major.compare left right with
    | .eq => minor.compare left right
    | decided => return decided

theorem IsTotalPreorder.result_thenBy {major minor : Comparator α}
    (majorLawful : major.IsTotalPreorder) (minorLawful : minor.IsTotalPreorder) (left right : α) :
    ((major.thenBy minor).compare left right).result =
      .ok (compareLex major.ordering minor.ordering left right) := by
  rw [thenBy, compare_of, Outcome.bind_of_ok (majorLawful.succeeds left right),
    Outcome.result_behind, compareLex]
  cases major.ordering left right with
  | lt | gt => rfl
  | eq => exact minorLawful.succeeds left right

theorem IsTotalPreorder.ordering_thenBy {major minor : Comparator α}
    (majorLawful : major.IsTotalPreorder) (minorLawful : minor.IsTotalPreorder) :
    (major.thenBy minor).ordering = compareLex major.ordering minor.ordering := by
  funext left right
  rw [ordering, majorLawful.result_thenBy minorLawful]
  rfl

/-- Total preorders one behind the other are a total preorder. -/
theorem IsTotalPreorder.thenBy {major minor : Comparator α} (majorLawful : major.IsTotalPreorder)
    (minorLawful : minor.IsTotalPreorder) : (major.thenBy minor).IsTotalPreorder := by
  have majorTransitive := majorLawful.transitive
  have minorTransitive := minorLawful.transitive
  have same := majorLawful.ordering_thenBy minorLawful
  constructor
  case succeeds =>
    intro left right
    rw [same, majorLawful.result_thenBy minorLawful]
  case transitive =>
    rw [same]
    infer_instance

/-- A comparator and later ones as one, in which a later one comes before all earlier ones. -/
def combined (first : Comparator α) (later : List (Comparator α)) : Comparator α :=
  later.foldl (fun earlier next => next.thenBy earlier) first

theorem isTotalPreorder_combined {first : Comparator α} {later : List (Comparator α)}
    (lawful : ∀ comparator ∈ first :: later, comparator.IsTotalPreorder) :
    (combined first later).IsTotalPreorder := by
  induction later generalizing first with
  | nil => exact lawful first List.mem_cons_self
  | cons next rest inductionHypothesis =>
    obtain ⟨firstLawful, laterLawful⟩ := List.forall_mem_cons.mp lawful
    obtain ⟨nextLawful, restLawful⟩ := List.forall_mem_cons.mp laterLawful
    exact inductionHypothesis
      (List.forall_mem_cons.mpr ⟨nextLawful.thenBy firstLawful, restLawful⟩)

end Comparator

/-! ### Queries on the whole list -/

namespace Query

/-- Where everything is accepted and there is room, the elements are gathered as they are. -/
theorem gather_acceptAll {room : Nat} (earlierCalls : Nat) {items : List α}
    (roomy : items.length ≤ room) :
    gather .acceptAll Mapper.identity room earlierCalls items = pure items := by
  induction items generalizing room earlierCalls with
  | nil => rfl
  | cons element rest inductionHypothesis =>
    obtain ⟨fewer, rfl⟩ := Nat.exists_eq_add_of_le' (Nat.le_trans (Nat.succ_pos _) roomy)
    have accepted : (Predicate.acceptAll : Predicate α).test element = ⟨[], .ok true⟩ := rfl
    rw [gather_cons_of_accepted accepted, inductionHypothesis _ (Nat.le_of_succ_le_succ roomy)]
    rfl

variable [BEq α] [Ord α]

/-- All elements of a list in the order of a comparator, if the calls are offered and succeed. -/
def orderedBy? (comparator : Comparator α) (items : List α) : Option (List α) := do
  let query ← (Query.ofList items).refine? (.orderBy comparator)
  query.elements? (.mapped .identity) none

theorem orderedBy?_eq {comparator : Comparator α} (lawful : comparator.IsTotalPreorder)
    (items : List α) :
    orderedBy? comparator items = some (mergeSorted comparator.ordering items) := by
  let query : Query α := ⟨items, .acceptAll, none, .orderedBy comparator⟩
  have gathered : (query.projected Mapper.identity).result = .ok items :=
    congrArg Outcome.result (gather_acceptAll 0 (Nat.le_refl items.length))
  show query.elements? (.mapped .identity) none = _
  rw [@elements?_eq α α _ _ query (.mapped .identity) none rfl items gathered]
  show (comparator.sort items).result.toOption = _
  rw [Comparator.result_sort lawful]
  rfl

/-- All elements of a list, ordered by several comparators one after the other. -/
def orderedInTurn? (comparators : List (Comparator α)) (items : List α) : Option (List α) :=
  comparators.foldlM (fun ordered comparator => orderedBy? comparator ordered) items

/-- A list that is ordered already is ordered further as by the combined comparator. -/
theorem orderedInTurn?_mergeSorted {first : Comparator α} {later : List (Comparator α)}
    (lawful : ∀ comparator ∈ first :: later, comparator.IsTotalPreorder) (items : List α) :
    orderedInTurn? later (mergeSorted first.ordering items) =
      some (mergeSorted (Comparator.combined first later).ordering items) := by
  induction later generalizing first with
  | nil => rfl
  | cons next rest inductionHypothesis =>
    obtain ⟨firstLawful, laterLawful⟩ := List.forall_mem_cons.mp lawful
    obtain ⟨nextLawful, restLawful⟩ := List.forall_mem_cons.mp laterLawful
    have firstTransitive := firstLawful.transitive
    have nextTransitive := nextLawful.transitive
    have both := nextLawful.thenBy firstLawful
    have further := inductionHypothesis (List.forall_mem_cons.mpr ⟨both, restLawful⟩)
    rw [nextLawful.ordering_thenBy firstLawful, ← mergeSorted_mergeSorted] at further
    rw [orderedInTurn?, List.foldlM_cons, orderedBy?_eq nextLawful]
    exact further

/-- Ordering a list by total preorders one after the other succeeds and gives what ordering it once
gives, by the comparator that compares with the last one, on equality with the one before, and so
on to the first. -/
theorem orderings_in_turn_combine {first : Comparator α} {later : List (Comparator α)}
    (lawful : ∀ comparator ∈ first :: later, comparator.IsTotalPreorder) (items : List α) :
    ∃ ordered, orderedInTurn? (first :: later) items = some ordered ∧
      orderedBy? (Comparator.combined first later) items = some ordered := by
  refine ⟨_, ?_, orderedBy?_eq (Comparator.isTotalPreorder_combined lawful) items⟩
  rw [orderedInTurn?, List.foldlM_cons, orderedBy?_eq (lawful first List.mem_cons_self)]
  exact orderedInTurn?_mergeSorted lawful items

/-- Pairs in ascending order of their second members, and then in descending order of their first.
The two pairs that differ in a tag only stay in their order both times. -/
theorem orderings_in_turn_combine_of_pairs :
    let member (position : Nat) : Value → Outcome Value := fun element =>
      match element with
      | .list items => pure (items.getD position .null)
      | _ => pure .null
    let pair (first second : Int) (tag : String) : Value :=
      .list [.int first, .tagged (.int second) tag]
    let bySecond : Comparator Value := .byKey (member 1)
    let byFirst : Comparator Value := (Comparator.byKey (member 0)).reversed
    let source : List Value :=
      [pair 1 2 "a", pair 1 1 "b", pair 2 2 "c", pair 1 1 "d", pair 2 1 "e"]
    let ordered : List Value :=
      [pair 2 1 "e", pair 2 2 "c", pair 1 1 "b", pair 1 1 "d", pair 1 2 "a"]
    orderedInTurn? [bySecond, byFirst] source = some ordered ∧
      orderedBy? (byFirst.thenBy bySecond) source = some ordered := by
  intro member pair bySecond byFirst source ordered
  have keyed (position : Nat) : (Comparator.byKey (member position)).IsTotalPreorder := by
    refine @Comparator.isTotalPreorder_byKey Value _ Value _ _ _
      (fun element => match element with | .list items => items.getD position .null | _ => .null)
      fun element => ?_
    cases element <;> rfl
  have lawful : ∀ comparator ∈ [bySecond, byFirst], comparator.IsTotalPreorder := by
    rintro comparator (_ | ⟨_, _ | ⟨_, ⟨⟩⟩⟩)
    · exact keyed 1
    · exact (keyed 0).reversed
  have computed : orderedInTurn? [bySecond, byFirst] source = some ordered := rfl
  obtain ⟨found, inTurn, atOnce⟩ := orderings_in_turn_combine lawful source
  obtain rfl : found = ordered := Option.some.inj (inTurn.symm.trans computed)
  exact ⟨inTurn, atOnce⟩

end Query

end StagedQuery
