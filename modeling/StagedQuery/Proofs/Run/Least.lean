/-
This file proves that the first element of a sorted query can be found without sorting.

The head of a stable sort is an element that no other is less than, and of all these the
one that stood first, since the sort leaves elements that compare equal in their order. A
scan finds the same element if it replaces its candidate by lesser elements only. The scan
goes over what remains of the images. Sorting comes last, so what remains is the same
whether all of it is asked for or the first element.
-/

import Mathlib.Data.List.Induction
import StagedQuery.Proofs.Run.Ordering

namespace StagedQuery

open Std

variable {α β : Type}

/-! ### The least element -/

/-- The candidate of a scan after one more element: a later element has to be less. -/
def lesser (comparing : α → α → Ordering) (candidate item : α) : α :=
  if (comparing item candidate).isLT then item else candidate

/-- The last candidate of a scan that starts with the first element. -/
def scanLeast (comparing : α → α → Ordering) : List α → Option α
  | [] => none
  | first :: rest => some (rest.foldl (lesser comparing) first)

theorem scanLeast_eq_none_iff {comparing : α → α → Ordering} {items : List α} :
    scanLeast comparing items = none ↔ items = [] := by
  cases items with
  | nil => exact iff_of_true rfl rfl
  | cons first rest => exact iff_of_false nofun nofun

/-- Whether no element of a list is less than this one. -/
def IsLeast (comparing : α → α → Ordering) (items : List α) (element : α) : Prop :=
  ∀ item ∈ items, (comparing element item).isLE

/-- Whether a list has a least element at a position, and none in front of it. -/
structure IsLeftmostLeast (comparing : α → α → Ordering) (items : List α) (position : Nat)
    (element : α) : Prop where
  place : items[position]? = some element
  least : IsLeast comparing items element
  leftmost : ∀ earlier < position, ∀ item, items[earlier]? = some item →
    ¬IsLeast comparing items item

section

variable {comparing : α → α → Ordering} [TransCmp comparing]

/-- The last candidate is less than all elements in front of it and not greater than any. -/
theorem exists_split_of_scan (first : α) (rest : List α) :
    ∃ front back, first :: rest = front ++ rest.foldl (lesser comparing) first :: back ∧
      (∀ earlier ∈ front, comparing (rest.foldl (lesser comparing) first) earlier = .lt) ∧
      IsLeast comparing (first :: rest) (rest.foldl (lesser comparing) first) := by
  induction rest using List.reverseRecOn with
  | nil =>
    refine ⟨[], [], rfl, fun _ => nofun, fun item same => ?_⟩
    rw [List.eq_of_mem_singleton same]
    exact ReflCmp.isLE_rfl
  | append_singleton rest last inductionHypothesis =>
    rw [List.foldl_append, List.foldl_cons, List.foldl_nil]
    obtain ⟨front, back, split, less, least⟩ := inductionHypothesis
    generalize rest.foldl (lesser comparing) first = candidate at split less least ⊢
    rw [← List.cons_append]
    by_cases replaced : (comparing last candidate).isLT
    · rw [lesser, if_pos replaced]
      have below : ∀ item ∈ first :: rest, comparing last item = .lt := fun item member =>
        TransCmp.lt_of_lt_of_isLE (Ordering.isLT_iff_eq_lt.mp replaced) (least item member)
      refine ⟨first :: rest, [], rfl, below, fun item member => ?_⟩
      rcases List.mem_append.mp member with earlier | isLast
      · rw [below item earlier]
        rfl
      · rw [List.eq_of_mem_singleton isLast]
        exact ReflCmp.isLE_rfl
    · rw [lesser, if_neg replaced]
      refine ⟨front, back ++ [last], ?_, less, fun item member => ?_⟩
      · rw [split, List.append_assoc, List.cons_append]
      · rcases List.mem_append.mp member with earlier | isLast
        · exact least item earlier
        · rw [List.eq_of_mem_singleton isLast]
          exact isLE_of_not_isLT replaced

/-- The head of a stable sort is what the scan finds. -/
theorem head?_mergeSorted (items : List α) :
    (mergeSorted comparing items).head? = scanLeast comparing items := by
  cases items with
  | nil => rw [mergeSorted, List.mergeSort_nil, scanLeast, List.head?_nil]
  | cons first rest =>
    obtain ⟨front, back, split, less, least⟩ := @exists_split_of_scan α comparing _ first rest
    rw [scanLeast]
    generalize rest.foldl (lesser comparing) first = candidate at split less least ⊢
    rw [split] at least ⊢
    -- The candidate can be moved to the front, since it passes no element that is equal to it.
    have moved : Rearranged comparing (front ++ [candidate]) ([candidate] ++ front) := by
      refine .swap fun earlier inFront other isCandidate same => ?_
      rw [List.eq_of_mem_singleton isCandidate] at same
      have equal := OrientedCmp.eq_symm same
      rw [less earlier inFront] at equal
      nomatch equal
    have rearranged := moved.append (.refl back)
    rw [List.append_assoc, List.append_assoc] at rearranged
    have others : StablySorted comparing (front ++ back) _ := .mergeSorted (front ++ back)
    have sorted : StablySorted comparing (front ++ candidate :: back) _ :=
      .of_rearranged rearranged (others.cons fun item member => ?_)
    · rw [← sorted.eq_mergeSorted]
      rfl
    · refine least item ?_
      rw [List.mem_append, List.mem_cons]
      exact (List.mem_append.mp member).imp_right .inr

/-- What the scan finds is least, and nothing in front of it is. -/
theorem exists_isLeftmostLeast_of_scan {items : List α} {element : α}
    (found : scanLeast comparing items = some element) :
    ∃ position, IsLeftmostLeast comparing items position element := by
  cases items with
  | nil => nomatch found
  | cons first rest =>
    obtain ⟨front, back, split, less, least⟩ := @exists_split_of_scan α comparing _ first rest
    obtain rfl := Option.some.inj found
    generalize rest.foldl (lesser comparing) first = candidate at split less least ⊢
    rw [split] at least ⊢
    refine ⟨front.length, ?_, least, fun earlier before item place isLeast => ?_⟩
    · rw [List.getElem?_append_right (Nat.le_refl _), Nat.sub_self]
      rfl
    · rw [List.getElem?_append_left before] at place
      have notAbove := isLeast candidate (List.mem_append_right front List.mem_cons_self)
      rw [← OrientedCmp.isGE_eq_isLE, less item (List.mem_of_getElem? place)] at notAbove
      nomatch notAbove

end

/-! ### Runs that give one element -/

namespace Query

/-- What it means to give the first element of a sorted query: nothing, if nothing remains to be
sorted, and otherwise the leftmost of the least elements, which a scan finds. -/
structure GivesLeast (ordering : α → α → Ordering) (remaining : List α) (found : Option α) :
    Prop where
  eq_scan : found = scanLeast ordering remaining
  eq_none_iff : found = none ↔ remaining = []
  exists_position : ∀ element, found = some element →
    ∃ position, IsLeftmostLeast ordering remaining position element

variable [BEq β] [Ord β] {query : Query α β} {projection : Projection α β}
  {ordering : β → β → Ordering} {images : List β}

/-- A sorted query whose images are gathered without fail gives, when it is asked for the first
element, the leftmost of the least that remain. It logs and reports what it does when it is asked
for all. -/
theorem select_first_of_sorted (sorts : query.stage.sorting.ordering? = some ordering)
    (transitive : TransCmp ordering) (lawful : query.stage.sorting.IsLawful)
    (offered : query.stage.offers ⟨projection, .first⟩)
    (gathered : (query.projected projection.mapper).result = .ok images) :
    ∃ evaluation whole found, query.select? ⟨projection, .first⟩ = some evaluation ∧
      query.select? ⟨projection, .all⟩ = some whole ∧
      evaluation.events = whole.events ∧ evaluation.outcome.trace = whole.outcome.trace ∧
      evaluation.outcome.result = .ok (.first found) ∧
      GivesLeast ordering (query.remaining none images) found := by
  have selected : query.select? ⟨projection, .first⟩ = some _ := if_pos offered
  have wholeSelected : query.select? ⟨projection, .all⟩ = some _ := if_pos offered
  refine ⟨_, _, scanLeast ordering (query.remaining none images), selected, wholeSelected, rfl,
    ?_, ?_, rfl, scanLeast_eq_none_iff, fun element => exists_isLeftmostLeast_of_scan⟩
  · rw [Phase.outcome_of_select selected, Phase.outcome_of_select wholeSelected,
      Outcome.trace_map, Outcome.trace_map]
    rfl
  · rw [Phase.outcome_of_select selected, Outcome.result_map, Outcome.bind_of_ok gathered,
      Outcome.result_behind, Sorting.result_apply_of_sorts lawful sorts, ← head?_mergeSorted]
    rfl

/-- Two tagged values have the greatest key, and the first of them is the first in descending
order. The log is that of the sort, though not all of it is needed for one element. -/
theorem select_first_of_sorted_of_tags :
    let key : Value → Outcome Value := fun element => ⟨[⟨"key", [element]⟩], .ok element⟩
    let comparator : Comparator Value := (Comparator.byKey key).reversed
    let source : List Value :=
      [.tagged (.int 1) "a", .tagged (.int 2) "b", .tagged (.int 2) "c", .tagged (.int 0) "d"]
    let query : Query Value :=
      ⟨source, .acceptAll, some 3, .special (.byComparator comparator) .keepAll⟩
    ∃ evaluation whole, query.select? ⟨.mapped .identity, .first⟩ = some evaluation ∧
      query.select? ⟨.mapped .identity, .all⟩ = some whole ∧
      evaluation.outcome.trace = whole.outcome.trace ∧
      evaluation.outcome.result = .ok (.first (some (.tagged (.int 2) "b"))) ∧
      IsLeftmostLeast comparator.ordering (source.take 3) 1 (.tagged (.int 2) "b") := by
  intro key comparator source query
  have lawful : comparator.IsTotalPreorder :=
    (Comparator.isTotalPreorder_byKey fun _ => rfl).reversed
  have sorts : query.stage.sorting.IsLawful := by
    rintro _ ⟨⟩
    exact lawful
  have gathered : (query.projected Mapper.identity).result = .ok (source.take 3) := rfl
  obtain ⟨evaluation, whole, found, selected, wholeSelected, _, traces, result, least⟩ :=
    @select_first_of_sorted Value Value _ _ query (.mapped .identity) comparator.ordering _ rfl
      lawful.transitive sorts rfl gathered
  have scanned : found = some (.tagged (.int 2) "b") := least.eq_scan
  obtain ⟨position, leftmost⟩ := least.exists_position _ scanned
  have place : (source.take 3)[position]? = some (.tagged (.int 2) "b") := leftmost.place
  have second : position = 1 := by
    match position, place with
    | 0, place => simp [source] at place
    | 1, _ => rfl
    | 2, place => simp [source] at place
    | further + 3, place => simp [source] at place
  rw [scanned] at result
  exact ⟨evaluation, whole, selected, wholeSelected, traces, result, second ▸ leftmost⟩

end Query

end StagedQuery
