/-
This file defines the stage that a query under construction has reached.

A stage records what was said so far about sorting and about duplicates. The
first stages are plain; once duplicates or a limit have been spoken of, a stage
only carries the two strategies on. A query that is sorted by a comparator
carries the comparator in its stage, so no other stage has one.
-/

import StagedQuery.Comparator.Sorting

namespace StagedQuery

/-! ### Strategies -/

/-- How the selected elements are sorted. -/
inductive Sorting (α : Type) where
  | unsorted
  | natural
  | byComparator (comparator : Comparator α)
  deriving Inhabited

namespace Sorting

variable {α : Type}

/-- Sorts a list stably, or leaves it alone. Only a caller's comparator can fail. -/
def apply [Ord α] : Sorting α → List α → Outcome (List α)
  | .unsorted, items => pure items
  | .natural, items => pure (items.mergeSort fun left right => (compare left right).isLE)
  | .byComparator comparator, items => comparator.sort items

/-- The bare name of a strategy. -/
def name : Sorting α → String
  | .unsorted => "Unsorted"
  | .natural => "Natural"
  | .byComparator _ => "ByComparator"

/-- Whether the strategy was fixed by a comparator. -/
def isPinned : Sorting α → Bool
  | .byComparator _ => true
  | .unsorted | .natural => false

end Sorting

/-- What becomes of equal elements. -/
inductive Deduplication where
  | keepAll
  | distinct
  deriving DecidableEq, Inhabited

namespace Deduplication

section

variable {α : Type} [BEq α]

/-- Tells of each element of a list in turn whether it is the first of its kind. An element is added
to the elements seen before unless one of them is equal to it. -/
def firstSeen (seen : List α) : List α → List Bool
  | [] => []
  | item :: rest =>
    if seen.any (item == ·) then false :: firstSeen seen rest
    else true :: firstSeen (item :: seen) rest

/-- The elements of a list whose marks are set. -/
def keepMarked (items : List α) (marks : List Bool) : List α :=
  (items.zip marks).filterMap fun (item, isMarked) => if isMarked then some item else none

/-- Keeps every element, or of equal ones the first. -/
def apply : Deduplication → List α → List α
  | .keepAll, items => items
  | .distinct, items => keepMarked items (firstSeen [] items)

@[simp]
theorem apply_keepAll (items : List α) : keepAll.apply items = items := rfl

/-- Of the elements that equal none seen before, the first of each kind are kept. -/
theorem keepMarked_firstSeen (seen items : List α) :
    keepMarked items (firstSeen seen items) =
      (items.filter fun item => !seen.any (item == ·)).eraseDups := by
  induction items generalizing seen with
  | nil => rfl
  | cons item rest inductionHypothesis =>
    by_cases known : seen.any (item == ·)
    · rw [firstSeen, if_pos known, List.filter_cons_of_neg (by simp [known])]
      exact inductionHypothesis seen
    · rw [firstSeen, if_neg known, List.filter_cons_of_pos (by simp [known]), List.eraseDups_cons,
        List.filter_filter]
      simp only [← Bool.not_or, ← List.any_cons]
      exact congrArg (item :: ·) (inductionHypothesis (item :: seen))

@[simp]
theorem apply_distinct (items : List α) : distinct.apply items = items.eraseDups := by
  have unseen : items.filter (fun item => !([] : List α).any (item == ·)) = items :=
    List.filter_eq_self.mpr fun _ _ => rfl
  show keepMarked items (firstSeen [] items) = _
  rw [keepMarked_firstSeen, unseen]

end

/-- The bare name of a strategy. -/
def name : Deduplication → String
  | .keepAll => "KeepAll"
  | .distinct => "Distinct"

end Deduplication

/-! ### Stages -/

/-- A stage in the construction of a query. -/
inductive Stage (α : Type) where
  | unfiltered
  | filtered
  | ordered
  | orderedBy (comparator : Comparator α)
  | special (sorting : Sorting α) (deduplication : Deduplication)
  deriving Inhabited

namespace Stage

variable {α : Type}

/-- How a query at this stage sorts. -/
def sorting : Stage α → Sorting α
  | .unfiltered | .filtered => .unsorted
  | .ordered => .natural
  | .orderedBy comparator => .byComparator comparator
  | .special sorting _ => sorting

/-- What a query at this stage does with equal elements. -/
def deduplication : Stage α → Deduplication
  | .special _ deduplication => deduplication
  | .unfiltered | .filtered | .ordered | .orderedBy _ => .keepAll

/-- Whether a comparator has fixed what the query selects. -/
def isPinned (stage : Stage α) : Bool := stage.sorting.isPinned

/-- The place of the stages' names. -/
def path (name : String) : String := "listquery::stage::" ++ name

/-- The full name of a stage. -/
def name : Stage α → String
  | .unfiltered => path "Unfiltered"
  | .filtered => path "Filtered"
  | .ordered => path "Ordered"
  | .orderedBy _ => path "OrderedBy"
  | .special sorting deduplication =>
    path ("Special<" ++ path sorting.name ++ ", " ++ path deduplication.name ++ ">")

end Stage

end StagedQuery
