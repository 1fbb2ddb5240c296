/-
This file defines the calls that build a query, and at which stages each of
them is offered.

Restrictions come first: one `filter`, then any number of `and` and `or`. At
most one ordering follows. Duplicates and the limit come last, in any order and
any number. A call that the current stage does not offer has no next stage.

Restrictions speak of the elements of a query, comparators of what the elements
are projected to. These images are of the elements' own type unless another one
is named.
-/

import StagedQuery.Predicate
import StagedQuery.Stage

namespace StagedQuery

/-- A call that refines a query on elements that are projected to images. -/
inductive Refinement (α : Type) (β : Type := α) where
  | filter (check : α → Outcome Bool)
  | and (check : α → Outcome Bool)
  | or (check : α → Outcome Bool)
  | ordered
  | orderBy (comparator : Comparator β)
  | distinct
  | limit (count : UInt64)
  deriving Inhabited

namespace Refinement

variable {α β : Type}

/-- Sorts by the natural order of a key. -/
def orderByKey {κ : Type} [Ord κ] (key : β → Outcome κ) : Refinement α β :=
  .orderBy (.byKey key)

/-- The predicate after the call. -/
def predicateAfter : Refinement α β → Predicate α → Predicate α
  | .filter check, predicate | .and check, predicate => predicate.and (.of check)
  | .or check, predicate => predicate.or (.of check)
  | .ordered, predicate | .orderBy _, predicate | .distinct, predicate | .limit _, predicate =>
    predicate

/-- The limit after the call. Sorting by a comparator starts without a limit. -/
def limitAfter : Refinement α β → Option UInt64 → Option UInt64
  | .limit count, _ => some count
  | .orderBy _, _ => none
  | .filter _, previous | .and _, previous | .or _, previous | .ordered, previous
  | .distinct, previous => previous

end Refinement

/-- The stage after a call, if the call is offered. -/
def Stage.next? {α β : Type} : Stage β → Refinement α β → Option (Stage β)
  | .unfiltered, .filter _ => some .filtered
  | .filtered, .and _ | .filtered, .or _ => some .filtered
  | .unfiltered, .ordered | .filtered, .ordered => some .ordered
  | .unfiltered, .orderBy comparator | .filtered, .orderBy comparator =>
    some (.orderedBy comparator)
  | stage, .distinct => some (.special stage.sorting .distinct)
  | stage, .limit _ => some (.special stage.sorting stage.deduplication)
  | _, _ => none

end StagedQuery
