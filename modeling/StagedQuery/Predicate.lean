/-
This file defines the tests that decide which elements a query keeps.

Tests are combined one at a time, so a chain of combinations always reads from
left to right: `a`, then `and b`, then `or c` keeps what passes `(a ∧ b) ∨ c`.
The second part of a combination is asked only when the first leaves the answer
open, which a log or a fault can show.
-/

import StagedQuery.Outcome

namespace StagedQuery

/-- A combination of tests on elements. -/
inductive Predicate (α : Type) where
  | acceptAll
  | of (check : α → Outcome Bool)
  | and (first second : Predicate α)
  | or (first second : Predicate α)
  deriving Inhabited

namespace Predicate

variable {α : Type}

/-- Whether an element is accepted. -/
def test : Predicate α → α → Outcome Bool
  | .acceptAll, _ => pure true
  | .of check, element => check element
  | .and first second, element => do
    if ← first.test element then second.test element else return false
  | .or first second, element => do
    if ← first.test element then return true else second.test element

/-- What a predicate shows of itself. -/
def describe (_ : Predicate α) : String := "Predicate(..)"

@[simp]
theorem test_acceptAll (element : α) : (acceptAll : Predicate α).test element = pure true := rfl

@[simp]
theorem test_of (check : α → Outcome Bool) (element : α) :
    (of check).test element = check element := rfl

/-- A test in conjunction with no restriction is that test. -/
theorem test_acceptAll_and (predicate : Predicate α) (element : α) :
    (acceptAll.and predicate).test element = predicate.test element := by
  rw [test, test_acceptAll, pure_bind, if_pos rfl]

end Predicate

end StagedQuery
