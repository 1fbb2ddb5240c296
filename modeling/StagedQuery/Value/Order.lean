/-
This file orders values. Kinds come first (`null`, truth values, numbers,
texts, lists, tagged values), and within a kind the order is the natural one:
texts by their characters, lists member by member with a shorter beginning
before the longer list, tagged values by their keys alone.

Equality of values is defined by the order, so that it too looks past tags, at
any depth. Deduplication, relations between values and sorting all use these
two instances.
-/

import StagedQuery.Value

namespace StagedQuery.Value

/-! ### Comparison -/

/-- The place of a value's kind among the kinds. -/
def rank : Value → Nat
  | .null => 0
  | .bool _ => 1
  | .int _ => 2
  | .str _ => 3
  | .list _ => 4
  | .tagged _ _ => 5

mutual

/-- Compares two values; tags take no part. -/
def order : Value → Value → Ordering
  | .bool left, .bool right => compare left right
  | .int left, .int right => compare left right
  | .str left, .str right => compare left right
  | .list left, .list right => orderItems left right
  | .tagged left _, .tagged right _ => order left right
  | left, right => compare left.rank right.rank

/-- Compares two lists at the first place where they differ. -/
def orderItems : List Value → List Value → Ordering
  | [], [] => .eq
  | [], _ :: _ => .lt
  | _ :: _, [] => .gt
  | left :: lefts, right :: rights => (order left right).then (orderItems lefts rights)

end

instance : Ord Value := ⟨order⟩

/-- Two values are equal when neither comes before the other. -/
instance : BEq Value := ⟨fun left right => (order left right).isEq⟩

theorem compare_eq_order (left right : Value) : compare left right = order left right := rfl

theorem beq_eq_isEq_compare (left right : Value) :
    (left == right) = (compare left right).isEq := rfl

end StagedQuery.Value
