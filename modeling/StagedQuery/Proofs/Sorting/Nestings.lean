/-
This file proves that a comparator made from another one by copying, reversing and
directing it, any number of times, compares as that one does, apart from the direction
of the result.

Every step leaves the arguments in their places and calls the comparator below it once.
So the caller's function at the bottom is called on the same two elements, logs the same
and fails alike, and all that the steps can do is to turn the result around. Turned
around or not, an order remains an order, and what compares elements or keys in their
natural order is therefore always fit to sort with.
-/

import StagedQuery.Proofs.Order.Values
import StagedQuery.Proofs.Sorting.Comparisons

namespace StagedQuery.Comparator

open Std

variable {α : Type} [Ord α]

/-! ### Nestings -/

/-- The steps in which a comparator is made from another one, the last step outermost. -/
inductive Nesting where
  | plain
  | copied (inner : Nesting)
  | reversed (inner : Nesting)
  | directed (inner : Nesting) (direction : Direction)

namespace Nesting

/-- The comparator that is made from a base. A copy of a comparator is that comparator. -/
def on (base : Comparator α) : Nesting → Comparator α
  | .plain => base
  | .copied inner => inner.on base
  | .reversed inner => (inner.on base).reversed
  | .directed inner direction => (inner.on base).directed direction

/-- How many steps reverse what is below them. -/
def reversals : Nesting → Nat
  | .plain => 0
  | .copied inner | .directed inner .ascending => inner.reversals
  | .reversed inner | .directed inner .descending => inner.reversals + 1

end Nesting

/-! ### Turned results -/

/-- A comparison that is turned around a number of times. -/
def turned (times : Nat) (comparison : Ordering) : Ordering :=
  if times % 2 = 1 then comparison.swap else comparison

/-- Once more turns a turned comparison around. -/
theorem turned_succ (times : Nat) : turned (times + 1) = Ordering.swap ∘ turned times := by
  funext comparison
  unfold turned
  rw [Function.comp_apply]
  rcases Nat.mod_two_eq_zero_or_one times with even | odd
  · rw [if_pos (by omega), if_neg (by omega)]
  · rw [if_neg (by omega), if_pos odd, Ordering.swap_swap]

/-- A nested comparator calls its base on the same elements and turns the result around once for
each reversal. -/
theorem Nesting.compare_on (base : Comparator α) (left right : α) (nesting : Nesting) :
    (nesting.on base).compare left right =
      turned nesting.reversals <$> base.compare left right := by
  induction nesting with
  | plain => exact (id_map _).symm
  | copied inner inductionHypothesis => exact inductionHypothesis
  | reversed inner inductionHypothesis =>
    rw [on, compare_reversed, inductionHypothesis, reversals, turned_succ, comp_map]
  | directed inner direction inductionHypothesis =>
    rw [on, compare_directed, inductionHypothesis]
    cases direction with
    | ascending => exact id_map _
    | descending => rw [reversals, turned_succ, comp_map]; rfl

/-! ### Keys -/

/-- What it means to compare two elements by their keys and to turn the result around a number of
times: the key on the left is computed first, and the one on the right only after it. -/
structure ComparesKeys {κ : Type} [Ord κ] (key : α → Outcome κ) (left right : α) (times : Nat)
    (compared : Outcome Ordering) : Prop where
  of_left_fault : ∀ fault, (key left).result = .error fault →
    compared = ⟨(key left).trace, .error fault⟩
  of_right_fault : ∀ leftKey fault, (key left).result = .ok leftKey →
    (key right).result = .error fault →
      compared = ⟨(key left).trace ++ (key right).trace, .error fault⟩
  of_keys : ∀ leftKey rightKey, (key left).result = .ok leftKey →
    (key right).result = .ok rightKey →
      compared = ⟨(key left).trace ++ (key right).trace,
        .ok (turned times (Ord.compare leftKey rightKey))⟩

theorem comparesKeys_byKey {κ : Type} [Ord κ] (key : α → Outcome κ) (left right : α)
    (times : Nat) :
    ComparesKeys key left right times (turned times <$> (byKey key).compare left right) := by
  rw [byKey, compare_of]
  constructor
  case of_left_fault =>
    intro fault failed
    rw [Outcome.bind_of_error failed]
    rfl
  case of_right_fault =>
    intro leftKey fault found failed
    rw [Outcome.bind_of_ok found, Outcome.bind_of_error failed]
    rfl
  case of_keys =>
    intro leftKey rightKey found rightFound
    rw [Outcome.bind_of_ok found, Outcome.bind_of_ok rightFound]
    refine Outcome.ext ?_ rfl
    rw [Outcome.trace_map, Outcome.trace_behind, Outcome.trace_behind, Outcome.trace_pure,
      List.append_nil]

/-! ### Comparators to sort with -/

/-- A comparator of the elements themselves, or of keys that are computed without fail. -/
inductive ComparesInOrder : Comparator α → Prop where
  | natural (transitive : TransOrd α) : ComparesInOrder .natural
  | byKey {κ : Type} [Ord κ] (transitive : TransOrd κ) {key : α → Outcome κ}
    (computes : ∀ element, ∃ value, (key element).result = .ok value) :
    ComparesInOrder (.byKey key)

theorem ComparesInOrder.isTotalPreorder {base : Comparator α} (inOrder : base.ComparesInOrder) :
    base.IsTotalPreorder := by
  cases inOrder with
  | natural transitive => exact ⟨fun _ _ => rfl, transitive⟩
  | byKey transitive computes =>
    choose value computes using computes
    exact isTotalPreorder_byKey computes

/-- Copying, reversing and directing a total preorder makes total preorders. -/
theorem IsTotalPreorder.on {base : Comparator α} (lawful : base.IsTotalPreorder)
    (nesting : Nesting) : (nesting.on base).IsTotalPreorder := by
  induction nesting with
  | plain => exact lawful
  | copied inner inductionHypothesis => exact inductionHypothesis
  | reversed inner inductionHypothesis => exact inductionHypothesis.reversed
  | directed inner direction inductionHypothesis =>
    cases direction with
    | ascending => exact inductionHypothesis
    | descending => exact inductionHypothesis.reversed

/-- A comparator that is fit to sort with. It never fails; it answers the other way round when its
arguments change places; what is not greater than a second element, which is not greater than a
third, is not greater than the third; and so every list is sorted stably. -/
structure FitToSort (comparator : Comparator α) : Prop where
  swap : ∀ left right, ∃ comparison, (comparator.compare left right).result = .ok comparison ∧
    (comparator.compare right left).result = .ok comparison.swap
  trans : ∀ first second third, (comparator.compare first second).result ≠ .ok .gt →
    (comparator.compare second third).result ≠ .ok .gt →
      (comparator.compare first third).result ≠ .ok .gt
  sorts : ∀ items, ∃ sorted, (comparator.sort items).result = .ok sorted ∧
    StablySorted comparator.ordering items sorted

theorem IsTotalPreorder.fitToSort {comparator : Comparator α}
    (lawful : comparator.IsTotalPreorder) : comparator.FitToSort := by
  have transitive := lawful.transitive
  have notAbove (left right : α) : (comparator.compare left right).result ≠ .ok .gt ↔
      (comparator.ordering left right).isLE := by
    rw [lawful.succeeds, Ordering.isLE_iff_ne_gt, ne_eq, Except.ok.injEq]
  constructor
  case swap =>
    intro left right
    refine ⟨_, lawful.succeeds left right, ?_⟩
    rw [lawful.succeeds]
    exact congrArg _ OrientedCmp.eq_swap
  case trans =>
    intro first second third
    rw [notAbove, notAbove, notAbove]
    exact TransCmp.isLE_trans
  case sorts => exact fun items => ⟨_, result_sort lawful items, .mergeSorted items⟩

/-! ### Nested comparators -/

/-- A nested comparator logs what its base logs, fails with the fault of its base, and otherwise
answers what its base answers, turned around if the number of reversals is odd. Over keys, the left
one is computed before the right one, however often the comparator is reversed. If the base
compares elements or keys in order, the nested comparator is fit to sort with. Values have such an
order, which reaches into lists and passes over tags. -/
theorem nesting_compares_as_base (nesting : Nesting) :
    (∀ (base : Comparator α) (left right : α),
      ((nesting.on base).compare left right).trace = (base.compare left right).trace ∧
        ((nesting.on base).compare left right).result =
          (base.compare left right).result.map (turned nesting.reversals)) ∧
    (∀ {κ : Type} [Ord κ] (key : α → Outcome κ) (left right : α),
      ComparesKeys key left right nesting.reversals
        ((nesting.on (.byKey key)).compare left right)) ∧
    (∀ base : Comparator α, base.ComparesInOrder → (nesting.on base).FitToSort) ∧
    TransOrd Value := by
  refine ⟨fun base left right => ?_, fun key left right => ?_, fun base inOrder => ?_,
    inferInstance⟩
  · rw [nesting.compare_on, Outcome.trace_map, Outcome.result_map]
    exact ⟨rfl, rfl⟩
  · rw [nesting.compare_on]
    exact comparesKeys_byKey key left right nesting.reversals
  · exact (inOrder.isTotalPreorder.on nesting).fitToSort

/-- Three reversals come to one. The left key is computed first: where it fails, nothing else is
logged. -/
theorem nesting_compares_as_base_of_three_reversals :
    let nesting : Nesting := .reversed (.directed (.copied (.reversed .plain)) .descending)
    let entry : Value → LogEntry := fun element => ⟨"key", [element]⟩
    let failing : Value → Outcome Value := fun element =>
      ⟨[entry element], if element matches .null then .error .indexOutOfRange else .ok element⟩
    let key : Value → Outcome Value := fun element => ⟨[entry element], .ok element⟩
    (nesting.on (.byKey failing)).compare .null (.int 1) =
        ⟨[entry .null], .error .indexOutOfRange⟩ ∧
      (nesting.on (.byKey failing)).compare (.int 1) .null =
        ⟨[entry (.int 1), entry .null], .error .indexOutOfRange⟩ ∧
      (nesting.on (.byKey failing)).compare (.int 1) (.int 2) =
        ⟨[entry (.int 1), entry (.int 2)], .ok .gt⟩ ∧
      ((nesting.on (.natural : Comparator Value)).compare (.int 1) (.int 2)).result = .ok .gt ∧
      (nesting.on (.byKey key)).FitToSort := by
  intro nesting entry failing key
  have three : nesting.reversals = 3 := rfl
  obtain ⟨asBase, byKeys, fit, _⟩ := @nesting_compares_as_base Value _ nesting
  rw [three] at asBase byKeys
  refine ⟨(byKeys failing .null (.int 1)).of_left_fault _ rfl,
    (byKeys failing (.int 1) .null).of_right_fault (.int 1) _ rfl rfl,
    (byKeys failing (.int 1) (.int 2)).of_keys _ _ rfl rfl,
    (asBase .natural (.int 1) (.int 2)).2, fit _ (.byKey inferInstance fun _ => ⟨_, rfl⟩)⟩

end StagedQuery.Comparator
