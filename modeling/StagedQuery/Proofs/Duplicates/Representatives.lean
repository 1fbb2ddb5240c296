/-
This file proves which elements are left when duplicates are dropped: of the elements
that are equal to one another, the first.

Which of them is first can be told at its own position, from what stands in front of
it. Equality may be coarser than identity, and then it shows which one is left. All
that is asked of equality is that it is an equivalence: an element that is dropped
for one that is kept could stand in for it wherever only equality counts. In
particular, dropping duplicates and picking out elements by a test that equal elements
answer alike can change places, and the other laws come down to that.
-/

import StagedQuery.Proofs.Lists.Positions
import StagedQuery.Proofs.Order.Values
import StagedQuery.Stage

namespace StagedQuery

variable {α : Type} [BEq α]

/-! ### Dropping duplicates and testing -/

/-- It does not matter whether duplicates are dropped before or after a test that equal elements
answer alike. -/
theorem filter_eraseDups {test : α → Bool}
    (alike : ∀ first second, first == second → test first = test second) (items : List α) :
    items.eraseDups.filter test = (items.filter test).eraseDups := by
  match items with
  | [] => rfl
  | first :: rest =>
    have fewer := List.length_filter_le (fun item => !item == first) rest
    have moved := filter_eraseDups alike (rest.filter fun item => !item == first)
    rw [List.filter_filter] at moved
    rw [List.eraseDups_cons]
    by_cases passes : test first
    · rw [List.filter_cons_of_pos passes, List.filter_cons_of_pos passes, List.eraseDups_cons,
        moved, List.filter_filter]
      simp only [Bool.and_comm]
    · rw [List.filter_cons_of_neg passes, List.filter_cons_of_neg passes, moved]
      refine congrArg _ (List.filter_congr fun item _ => ?_)
      -- An element that is equal to the first one fails the test as the first one does.
      cases same : item == first with
      | false => rw [Bool.not_false, Bool.and_true]
      | true => rw [alike item first same, Bool.eq_false_iff.mpr passes, Bool.false_and]
termination_by items.length
decreasing_by
  exact Nat.lt_succ_of_le fewer

section

variable [EquivBEq α]

/-- The first element is kept, and what equals it is dropped from the rest. -/
theorem eraseDups_cons_eq_filter (first : α) (rest : List α) :
    (first :: rest).eraseDups = first :: rest.eraseDups.filter fun item => !item == first := by
  rw [List.eraseDups_cons, filter_eraseDups]
  intro left right same
  rw [BEq.congr_left same]

theorem eraseDups_sublist (items : List α) : items.eraseDups.Sublist items := by
  induction items with
  | nil => exact List.Sublist.slnil
  | cons first rest inductionHypothesis =>
    rw [eraseDups_cons_eq_filter]
    exact (List.filter_sublist.trans inductionHypothesis).cons_cons first

/-- No two elements that are kept are equal. -/
theorem pairwise_eraseDups (items : List α) :
    items.eraseDups.Pairwise fun earlier later => (earlier == later) = false := by
  induction items with
  | nil => exact List.Pairwise.nil
  | cons first rest inductionHypothesis =>
    rw [eraseDups_cons_eq_filter, List.pairwise_cons]
    refine ⟨fun item member => ?_, inductionHypothesis.filter _⟩
    have different := (List.mem_filter.mp member).2
    rwa [Bool.not_eq_true', BEq.comm] at different

/-- Where no two elements are equal, none is dropped. -/
theorem eraseDups_of_pairwise {items : List α}
    (different : items.Pairwise fun earlier later => (earlier == later) = false) :
    items.eraseDups = items := by
  induction items with
  | nil => rfl
  | cons first rest inductionHypothesis =>
    obtain ⟨firstDifferent, restDifferent⟩ := List.pairwise_cons.mp different
    rw [eraseDups_cons_eq_filter, inductionHypothesis restDifferent, List.filter_eq_self.mpr]
    intro item member
    rw [BEq.comm, firstDifferent item member, Bool.not_false]

theorem eraseDups_eraseDups (items : List α) : items.eraseDups.eraseDups = items.eraseDups :=
  eraseDups_of_pairwise (pairwise_eraseDups items)

/-- Behind a list, those elements are kept that would be kept anyhow and equal none of the list. -/
theorem eraseDups_append (items others : List α) :
    (items ++ others).eraseDups =
      items.eraseDups ++ others.eraseDups.filter fun other => !items.any (other == ·) := by
  induction items with
  | nil => exact (List.filter_eq_self.mpr fun _ _ => rfl).symm
  | cons first rest inductionHypothesis =>
    rw [List.cons_append, eraseDups_cons_eq_filter, inductionHypothesis, List.filter_append,
      List.filter_filter, eraseDups_cons_eq_filter first rest, List.cons_append]
    simp only [List.any_cons, Bool.not_or]

theorem eraseDups_concat (items : List α) (last : α) :
    (items ++ [last]).eraseDups =
      items.eraseDups ++ if items.any (last == ·) then [] else [last] := by
  rw [eraseDups_append]
  refine congrArg _ ?_
  show [last].filter (fun other => !items.any (other == ·)) = _
  cases known : items.any (last == ·) <;> simp [known]

/-- Every element is equal to exactly one that is kept. -/
theorem countP_eraseDups {items : List α} {element : α} (member : element ∈ items) :
    items.eraseDups.countP (element == ·) = 1 := by
  have alike : ∀ first second, first == second → (element == first) = (element == second) :=
    fun first second same => BEq.congr_right same
  rw [List.countP_eq_length_filter, filter_eraseDups alike]
  have found : element ∈ items.filter (element == ·) := List.mem_filter.mpr ⟨member, BEq.rfl⟩
  cases equals : items.filter (element == ·) with
  | nil =>
    rw [equals] at found
    nomatch found
  | cons first rest =>
    have allEqual : ∀ item ∈ first :: rest, element == item :=
      fun item inEquals => (List.mem_filter.mp (equals ▸ inEquals)).2
    have dropped : (rest.filter fun item => !item == first) = [] := by
      refine List.filter_eq_nil_iff.mpr fun item inRest => ?_
      have same := BEq.trans (BEq.symm (allEqual item (List.mem_cons_of_mem first inRest)))
        (allEqual first List.mem_cons_self)
      rw [same]
      exact Bool.false_ne_true
    rw [List.eraseDups_cons, dropped]
    rfl

end

/-! ### First positions -/

/-- Whether the element at a position is equal to none in front of it. -/
def isFirst (items : List α) (position : Nat) : Bool :=
  items[position]?.all fun element => (items.take position).all fun earlier => !earlier == element

theorem isFirst_iff {items : List α} {position : Nat} {element : α}
    (place : items[position]? = some element) :
    isFirst items position ↔ ∀ earlier ∈ items.take position, (earlier == element) = false := by
  unfold isFirst
  rw [place, Option.all_some, List.all_eq_true]
  simp only [Bool.not_eq_true']

/-- Whether an element is the first of its kind does not depend on what follows it. -/
theorem isFirst_append {items : List α} {position : Nat} (inside : position < items.length)
    (others : List α) : isFirst (items ++ others) position = isFirst items position := by
  unfold isFirst
  rw [List.getElem?_append_left inside, List.take_append_of_le_length (Nat.le_of_lt inside)]

theorem isFirst_length (items : List α) (last : α) :
    isFirst (items ++ [last]) items.length = !items.any (· == last) := by
  unfold isFirst
  rw [List.getElem?_concat_length, List.take_left', List.not_any_eq_all_not]
  · rfl
  · rfl

variable [EquivBEq α]

/-- What is kept stands at the first positions. -/
theorem eraseDups_eq_atPositions (items : List α) :
    items.eraseDups = atPositions items (isFirst items) := by
  induction items using List.reverseRecOn with
  | nil => rfl
  | append_singleton items last inductionHypothesis =>
    have before : atPositions items (isFirst (items ++ [last])) =
        atPositions items (isFirst items) :=
      atPositions_congr fun position inside => isFirst_append inside [last]
    rw [eraseDups_concat, atPositions_concat, before, ← inductionHypothesis, isFirst_length]
    simp only [BEq.comm (a := last)]
    cases items.any (· == last) <;> rfl

/-- In front of every element that is not the first of its kind stands an equal one that is. -/
theorem exists_isFirst_le {items : List α} {position : Nat} {element : α}
    (place : items[position]? = some element) :
    ∃ first ≤ position, isFirst items first ∧
      ∃ representative, items[first]? = some representative ∧ element == representative := by
  induction position using Nat.strongRecOn generalizing element with
  | ind position inductionHypothesis =>
    by_cases already : isFirst items position
    · exact ⟨position, Nat.le_refl _, already, element, place, BEq.rfl⟩
    · rw [isFirst_iff place] at already
      push Not at already
      obtain ⟨earlier, member, same⟩ := already
      obtain ⟨index, inFront, earlierEq⟩ := List.mem_take_iff_getElem.mp member
      obtain ⟨before, inside⟩ := Nat.lt_min.mp inFront
      have earlierPlace : items[index]? = some earlier :=
        List.getElem?_eq_some_iff.mpr ⟨inside, earlierEq⟩
      obtain ⟨first, notBehind, firstOfKind, representative, found, equal⟩ :=
        inductionHypothesis index before earlierPlace
      have sameKind := BEq.symm ((Bool.not_eq_false _).mp same)
      exact ⟨first, Nat.le_trans notBehind (Nat.le_of_lt before), firstOfKind, representative,
        found, BEq.trans sameKind equal⟩

/-! ### Dropping duplicates -/

/-- What it means to keep the first elements of their kinds: they are told at their own positions,
no two of them are equal, and every element of the list is equal to exactly one of them, which
stands no later. -/
structure KeepsFirst (items kept : List α) : Prop where
  eq_atPositions : kept = atPositions items (isFirst items)
  pairwise_ne : kept.Pairwise fun earlier later => (earlier == later) = false
  countP_eq_one : ∀ element ∈ items, kept.countP (element == ·) = 1
  exists_le : ∀ position element, items[position]? = some element →
    ∃ first ≤ position, isFirst items first ∧
      ∃ representative, items[first]? = some representative ∧ element == representative

theorem keepsFirst_eraseDups (items : List α) : KeepsFirst items items.eraseDups where
  eq_atPositions := eraseDups_eq_atPositions items
  pairwise_ne := pairwise_eraseDups items
  countP_eq_one _ member := countP_eraseDups member
  exists_le _ _ place := exists_isFirst_le place

namespace Deduplication

/-- Dropping duplicates keeps the first elements of their kinds, whatever it is to be equal. Doing
it again drops nothing more, and what is kept of a list does not depend on what follows it. Of
values, those are equal that only tags tell apart, at any depth. -/
theorem apply_distinct_keeps_first :
    (∀ {α : Type} [BEq α] [EquivBEq α] (items others : List α),
      KeepsFirst items (distinct.apply items) ∧
        distinct.apply (distinct.apply items) = distinct.apply items ∧
        distinct.apply (items ++ others) = distinct.apply items ++
          (distinct.apply others).filter fun other => !items.any (other == ·)) ∧
    EquivBEq Value ∧ ∀ left right : Value, left == right ↔ left.untagged = right.untagged := by
  refine ⟨?_, inferInstance, Value.beq_iff_untagged_eq⟩
  intro α _ _ items others
  simp only [apply_distinct]
  exact ⟨keepsFirst_eraseDups items, eraseDups_eraseDups items, eraseDups_append items others⟩

/-- Lists with tagged members. The second and the fourth are equal to the first, but have other
tags. -/
theorem apply_distinct_keeps_first_of_tagged_members :
    let first : Value := .list [.tagged (.int 1) "a", .tagged (.str "x") "b"]
    let second : Value := .list [.tagged (.int 1) "c", .tagged (.str "x") "d"]
    let third : Value := .list [.tagged (.int 1) "a"]
    let items := [first, second, third, second]
    distinct.apply items = [first, third] ∧ KeepsFirst items [first, third] ∧ first == second := by
  intro first second third items
  obtain ⟨keeps, _, equal⟩ := apply_distinct_keeps_first
  have kept : distinct.apply items = [first, third] := rfl
  refine ⟨kept, ?_, (equal first second).mpr rfl⟩
  rw [← kept]
  exact (keeps items []).1

end Deduplication

end StagedQuery
