/-
This file defines queries on a list. A query is a value: building it touches no
element of its source, and refining it gives a new query and leaves the old one
as it was.
-/

import StagedQuery.Refinement
import StagedQuery.Text.Description
import StagedQuery.Text.Quoted

namespace StagedQuery

/-- A query: its source, the elements it keeps, at most how many, and its stage. Its elements are
projected to images, and the comparator of a stage that has one compares these. -/
structure Query (α : Type) (β : Type := α) where
  source : List α
  predicate : Predicate α
  limit : Option UInt64
  stage : Stage β
  deriving Inhabited

namespace Query

variable {α β : Type}

/-! ### Construction -/

/-- The query that keeps every element of a list. -/
def ofList (source : List α) : Query α β where
  source
  predicate := .acceptAll
  limit := none
  stage := .unfiltered

/-- Refines a query, if the call is offered at its stage. -/
def refine? (query : Query α β) (refinement : Refinement α β) : Option (Query α β) :=
  (query.stage.next? refinement).map fun stage =>
    { source := query.source
      predicate := refinement.predicateAfter query.predicate
      limit := refinement.limitAfter query.limit
      stage }

/-- Refines a query by several calls, if each is offered where it stands. -/
def refineAll? (query : Query α β) (refinements : List (Refinement α β)) : Option (Query α β) :=
  refinements.foldlM refine? query

/-! ### Description -/

/-- What a query shows of itself: it names its kind by whether a comparator has fixed what it
selects. -/
def describe (query : Query α β) : Text.Description :=
  .record (if query.stage.isPinned then "TypedListQuery" else "ListQuery")
    [("source_len", .ofNat query.source.length),
      ("limit", .ofOption (query.limit.map fun count => .ofNat count.toNat)),
      ("stage", .word (Text.quoted query.stage.name))]
    true

end Query

end StagedQuery
