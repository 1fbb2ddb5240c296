/-
This file defines sessions: programs that build queries under names, copy and
refine them, run them, and get one answer per step.

A step that asks for something impossible is answered and otherwise ignored. The
page that a step names is checked first, whatever the step does; then the
register is looked up, and the stage comes last.
-/

import StagedQuery.Query.Evaluation
import StagedQuery.Value.Order

namespace StagedQuery

/-! ### Steps and answers -/

/-- How much of a result a step asks for; the page is the one that the step names. -/
inductive Request where
  | all
  | paged
  | first
  deriving DecidableEq

/-- The extent that is asked for, where there is one: a paged request needs a page. -/
def Request.extent? (paging : Option Paging) : Request → Option Extent
  | .all => some .all
  | .paged => paging.map .page
  | .first => some .first

/-- What a step does. -/
inductive Action where
  | start
  | copy
  | refine (refinement : Refinement Value)
  | select (mapper : Option (Mapper Value)) (request : Request)
  | inspect

/-- A page as a step names it; its counts are not checked yet. -/
structure NamedPage where
  number : UInt64
  size : UInt64
  deriving DecidableEq

/-- One step: what it does, the page it names, the register it reads and the one it writes. -/
structure Step where
  action : Action
  page : Option NamedPage
  register : String
  target : String

/-- The page of a step, or the problem with it. -/
def Step.paging (step : Step) : Except PagingError (Option Paging) :=
  match step.page with
  | some named => (Paging.of? named.number named.size).map some
  | none => .ok none

/-- The answer to a step. -/
inductive Answer where
  | built (query : Query Value)
  | found (evaluation : Evaluation (Found Value))
  | inspected (query : Query Value)
  | rejected (error : PagingError)
  | emptyRegister
  | notOffered

/-! ### Sessions -/

/-- A list of values and the queries on it, each under its name. -/
structure Session where
  source : List Value
  registers : String → Option (Query Value)

namespace Session

/-- The session on a list, with the query on the whole list in one register. -/
def start (source : List Value) (register : String) : Session where
  source
  registers name := if name = register then some (.ofList source) else none

/-- Writes a query to a register. -/
def write (session : Session) (target : String) (query : Query Value) : Session where
  source := session.source
  registers name := if name = target then some query else session.registers name

/-- Writes a query that a step has made, and answers with it. -/
def build (session : Session) (step : Step) (query : Query Value) : Session × Answer :=
  (session.write step.target query, .built query)

/-- Goes on with the query that a step reads. -/
def reading (session : Session) (step : Step) (next : Query Value → Session × Answer) :
    Session × Answer :=
  match session.registers step.register with
  | some query => next query
  | none => (session, .emptyRegister)

/-- Does what a step asks for, once its page is known. -/
def act (session : Session) (step : Step) (paging : Option Paging) : Session × Answer :=
  match step.action with
  | .start => session.build step (.ofList session.source)
  | .copy => session.reading step fun query => session.build step query
  | .refine refinement => session.reading step fun query =>
    match query.refine? refinement with
    | some refined => session.build step refined
    | none => (session, .notOffered)
  | .select mapper request => session.reading step fun query =>
    match request.extent? paging with
    | none => (session, .notOffered)
    | some extent =>
      match query.select? ⟨mapper, extent⟩ with
      | some evaluation => (session, .found evaluation)
      | none => (session, .notOffered)
  | .inspect => session.reading step fun query => (session, .inspected query)

/-- Takes one step, unless it names a page that does not exist. -/
def perform (session : Session) (step : Step) : Session × Answer :=
  match step.paging with
  | .ok paging => session.act step paging
  | .error error => (session, .rejected error)

/-- Takes steps one after the other and answers each. -/
def run (session : Session) : List Step → List Answer
  | [] => []
  | step :: rest =>
    let (next, answer) := session.perform step
    answer :: next.run rest

/-- Every step is answered. -/
theorem length_run (session : Session) (steps : List Step) :
    (session.run steps).length = steps.length := by
  induction steps generalizing session with
  | nil => rfl
  | cons step rest inductionHypothesis =>
    rw [run, List.length_cons, inductionHypothesis, List.length_cons]

end Session

end StagedQuery
