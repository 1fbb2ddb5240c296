/-
This file proves that the order of values is a total preorder, in which values are
equal if they differ in their tags at most.

Three comparisons among three values are consistent if equal values compare
alike with a third and if what comes first comes first of all. Consistency passes
from the members to the lists, so it holds of all values by induction. Values of
different kinds are compared by the ranks of their kinds and need no induction.
-/

import StagedQuery.Value.Order

namespace StagedQuery.Value

open Std

/-- Comparisons of a first value with a second one, of the second with a third, and of the first
with the third, as an order gives them. -/
structure Consistent (lower upper outer : Ordering) : Prop where
  of_lower_eq : lower = .eq → outer = upper
  of_upper_eq : upper = .eq → outer = lower
  of_lt : lower = .lt → upper = .lt → outer = .lt

namespace Consistent

theorem of_transCmp {α : Type} (comparing : α → α → Ordering) [TransCmp comparing]
    (first second third : α) :
    Consistent (comparing first second) (comparing second third) (comparing first third) where
  of_lower_eq same := TransCmp.congr_left same
  of_upper_eq same := (TransCmp.congr_right same).symm
  of_lt := TransCmp.lt_trans

/-- A second comparison decides where the first one does not. It only has to be consistent where
the first one holds all three for equal. -/
theorem andThen {lower upper outer lower' upper' outer' : Ordering}
    (heads : Consistent lower upper outer)
    (tails : lower = .eq → upper = .eq → Consistent lower' upper' outer') :
    Consistent (lower.then lower') (upper.then upper') (outer.then outer') := by
  by_cases same : lower = .eq ∧ upper = .eq
  · obtain ⟨rfl, rfl⟩ := same
    obtain rfl := heads.of_lower_eq rfl
    exact tails rfl rfl
  · obtain ⟨ofLowerEq, ofUpperEq, ofLt⟩ := heads
    cases lower <;> cases upper <;> constructor <;> simp_all

end Consistent

/-! ### Kinds -/

/-- Values of different kinds are ordered as their kinds. -/
theorem order_eq_then (left right : Value) :
    order left right = (compare left.rank right.rank).then (order left right) := by
  cases left <;> cases right <;> rfl

theorem order_of_rank_ne {left right : Value} (different : left.rank ≠ right.rank) :
    order left right = compare left.rank right.rank := by
  rw [order_eq_then]
  cases ranks : compare left.rank right.rank with
  | eq => exact absurd (Std.compare_eq_iff_eq.mp ranks) different
  | lt => rfl
  | gt => rfl

/-! ### Exchanging two values -/

mutual

theorem order_swap (left right : Value) : order right left = (order left right).swap := by
  by_cases alike : left.rank = right.rank
  · match left, right, alike with
    | .null, .null, _ => rfl
    | .bool first, .bool second, _ =>
      show compare second first = (compare first second).swap
      exact OrientedCmp.eq_swap
    | .int first, .int second, _ =>
      show compare second first = (compare first second).swap
      exact OrientedCmp.eq_swap
    | .str first, .str second, _ =>
      show compare second first = (compare first second).swap
      exact OrientedCmp.eq_swap
    | .list first, .list second, _ =>
      rw [order, order]
      exact orderItems_swap first second
    | .tagged first _, .tagged second _, _ =>
      rw [order, order]
      exact order_swap first second
  · rw [order_of_rank_ne alike, order_of_rank_ne (Ne.symm alike)]
    exact OrientedCmp.eq_swap

theorem orderItems_swap (lefts rights : List Value) :
    orderItems rights lefts = (orderItems lefts rights).swap := by
  match lefts, rights with
  | [], [] => rfl
  | [], _ :: _ => rfl
  | _ :: _, [] => rfl
  | left :: lefts, right :: rights =>
    rw [orderItems, orderItems, Ordering.swap_then, order_swap left right,
      orderItems_swap lefts rights]

end

/-! ### Three values -/

mutual

theorem order_consistent (first second third : Value) :
    Consistent (order first second) (order second third) (order first third) := by
  rw [order_eq_then first second, order_eq_then second third, order_eq_then first third]
  refine .andThen (.of_transCmp compare _ _ _) fun lowerRanks upperRanks => ?_
  match first, second, third, Std.compare_eq_iff_eq.mp lowerRanks,
    Std.compare_eq_iff_eq.mp upperRanks with
  | .null, .null, .null, _, _ =>
    exact .of_transCmp (compare : Nat → Nat → Ordering) 0 0 0
  | .bool first, .bool second, .bool third, _, _ =>
    rw [order, order, order]
    exact .of_transCmp compare first second third
  | .int first, .int second, .int third, _, _ =>
    rw [order, order, order]
    exact .of_transCmp compare first second third
  | .str first, .str second, .str third, _, _ =>
    rw [order, order, order]
    exact .of_transCmp compare first second third
  | .list first, .list second, .list third, _, _ =>
    rw [order, order, order]
    exact orderItems_consistent first second third
  | .tagged first _, .tagged second _, .tagged third _, _, _ =>
    rw [order, order, order]
    exact order_consistent first second third

theorem orderItems_consistent (firsts seconds thirds : List Value) :
    Consistent (orderItems firsts seconds) (orderItems seconds thirds)
      (orderItems firsts thirds) := by
  match firsts, seconds, thirds with
  | first :: firsts, second :: seconds, third :: thirds =>
    rw [orderItems, orderItems, orderItems]
    exact .andThen (order_consistent first second third)
      fun _ _ => orderItems_consistent firsts seconds thirds
  -- An end comes before a member and beside an end, which the three lists' lengths decide.
  | [], [], [] | [], [], _ :: _ | [], _ :: _, [] | [], _ :: _, _ :: _ | _ :: _, [], []
  | _ :: _, [], _ :: _ | _ :: _, _ :: _, [] =>
    simp only [orderItems]
    constructor <;> simp

end

instance : TransOrd Value where
  eq_swap := order_swap _ _
  isLE_trans := by
    intro first second third lower upper
    obtain ⟨ofLowerEq, ofUpperEq, ofLt⟩ := order_consistent first second third
    show (order first third).isLE
    change (order first second).isLE at lower
    change (order second third).isLE at upper
    cases lowers : order first second with
    | eq => rwa [ofLowerEq lowers]
    | gt => rw [lowers] at lower; contradiction
    | lt =>
      cases uppers : order second third with
      | eq => rw [ofUpperEq uppers, lowers]; rfl
      | lt => rw [ofLt lowers uppers]; rfl
      | gt => rw [uppers] at upper; contradiction

/-! ### Equal values -/

/-- Equality and the order of values agree. -/
instance : LawfulBEqOrd Value where
  compare_eq_iff_beq {left right} := by rw [beq_eq_isEq_compare, Ordering.isEq_iff_eq_eq]

mutual

/-- A value with all its tags taken off, those of its members included. -/
def untagged : Value → Value
  | .null => .null
  | .bool truth => .bool truth
  | .int number => .int number
  | .str text => .str text
  | .list items => .list (untaggedItems items)
  | .tagged key _ => .tagged key.untagged ""

def untaggedItems : List Value → List Value
  | [] => []
  | item :: rest => item.untagged :: untaggedItems rest

end

theorem rank_untagged (value : Value) : value.untagged.rank = value.rank := by
  cases value <;> rfl

mutual

theorem order_eq_iff (left right : Value) :
    order left right = .eq ↔ left.untagged = right.untagged := by
  by_cases alike : left.rank = right.rank
  · match left, right, alike with
    | .null, .null, _ => exact iff_of_true rfl rfl
    | .bool first, .bool second, _ =>
      rw [order, untagged, untagged, Std.compare_eq_iff_eq, Value.bool.injEq]
    | .int first, .int second, _ =>
      rw [order, untagged, untagged, Std.compare_eq_iff_eq, Value.int.injEq]
    | .str first, .str second, _ =>
      rw [order, untagged, untagged, Std.compare_eq_iff_eq, Value.str.injEq]
    | .list first, .list second, _ =>
      rw [order, untagged, untagged, Value.list.injEq]
      exact orderItems_eq_iff first second
    | .tagged first _, .tagged second _, _ =>
      rw [order, untagged, untagged, Value.tagged.injEq, and_iff_left rfl]
      exact order_eq_iff first second
  · rw [order_of_rank_ne alike, Std.compare_eq_iff_eq]
    refine iff_of_false alike fun same => alike ?_
    rw [← rank_untagged left, same, rank_untagged]

theorem orderItems_eq_iff (lefts rights : List Value) :
    orderItems lefts rights = .eq ↔ untaggedItems lefts = untaggedItems rights := by
  match lefts, rights with
  | [], [] => exact iff_of_true rfl rfl
  | [], _ :: _ | _ :: _, [] => exact iff_of_false nofun nofun
  | left :: lefts, right :: rights =>
    rw [orderItems, untaggedItems, untaggedItems, Ordering.then_eq_eq, List.cons.injEq,
      order_eq_iff left right, orderItems_eq_iff lefts rights]

end

/-- Values are equal if nothing but their tags tells them apart. -/
theorem beq_iff_untagged_eq (left right : Value) :
    left == right ↔ left.untagged = right.untagged := by
  rw [← order_eq_iff, ← LawfulBEqOrd.compare_eq_iff_beq]
  rfl

end StagedQuery.Value
