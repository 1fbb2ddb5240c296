/-
This file defines the comparators that order the elements of a query.

A comparator is natural, or made from a caller's function, possibly by way of a
sort key; and it can be reversed. Reversing turns the result around and leaves
the arguments in their places, so a reversed comparator calls the caller's
function exactly as the plain one does.
-/

import StagedQuery.Direction
import StagedQuery.Outcome

namespace StagedQuery

/-- A way to compare two elements. -/
inductive Comparator (α : Type) where
  | natural
  | of (comparing : α → α → Outcome Ordering)
  | reversed (comparator : Comparator α)
  deriving Inhabited

namespace Comparator

variable {α : Type}

/-- Compares by a key: the key of the left element is computed first. -/
def byKey {κ : Type} [Ord κ] (key : α → Outcome κ) : Comparator α :=
  .of fun left right => do
    let leftKey ← key left
    let rightKey ← key right
    return Ord.compare leftKey rightKey

/-- The comparator as seen in a direction. -/
def directed (comparator : Comparator α) : Direction → Comparator α
  | .ascending => comparator
  | .descending => comparator.reversed

/-- Compares two elements. -/
def compare [Ord α] : Comparator α → α → α → Outcome Ordering
  | .natural, left, right => pure (Ord.compare left right)
  | .of comparing, left, right => comparing left right
  | .reversed comparator, left, right => Ordering.swap <$> comparator.compare left right

/-- What a comparator shows of itself. -/
def describe (_ : Comparator α) : String := "Comparator(..)"

section

variable [Ord α] (left right : α)

@[simp]
theorem compare_natural : (natural : Comparator α).compare left right =
    pure (Ord.compare left right) := rfl

@[simp]
theorem compare_of (comparing : α → α → Outcome Ordering) :
    (of comparing).compare left right = comparing left right := rfl

@[simp]
theorem compare_reversed (comparator : Comparator α) :
    comparator.reversed.compare left right = Ordering.swap <$> comparator.compare left right := rfl

/-- Directing a comparator turns its results, not its arguments. -/
theorem compare_directed (comparator : Comparator α) (direction : Direction) :
    (comparator.directed direction).compare left right =
      direction.apply <$> comparator.compare left right := by
  cases direction with
  | ascending => exact (id_map _).symm
  | descending => rfl

end

end Comparator

end StagedQuery
