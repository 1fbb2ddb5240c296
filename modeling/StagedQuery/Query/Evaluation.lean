/-
This file runs queries.

A run keeps the accepted elements in the order of the source, at most as many
as the limit allows, and projects each one at once: an element is tested only
after the one before it has been projected, and none is tested once the limit
is reached. What was projected is then freed of duplicates, cut to a page, and
sorted last of all, so a sorted page is a page of the unsorted elements.

A run reports that it starts and, unless a test or a projection failed, what it
has found before it sorts.
-/

import StagedQuery.Paging
import StagedQuery.Query

namespace StagedQuery

/-! ### Reports -/

/-- What a run reports on its way. -/
inductive Event where
  | started (sourceLength : Nat) (limit : Option UInt64) (paging : Option Paging)
  | materialized (projected selected : Nat)
  deriving DecidableEq

namespace Event

/-- The named texts of an event. -/
def fields : Event → List (String × String)
  | .started sourceLength limit paging =>
    [("message", "evaluating list query"),
      ("source", toString sourceLength),
      ("limit", (Text.Description.ofOption (limit.map fun count => .ofNat count.toNat)).inline),
      ("paging", (Text.Description.ofOption (paging.map Paging.describe)).inline)]
  | .materialized projected selected =>
    [("message", "list query materialized"),
      ("projected", toString projected),
      ("selected", toString selected)]

end Event

/-- A run: what it reported and what it came to. -/
structure Evaluation (β : Type) where
  events : List Event
  outcome : Outcome β

/-- Changes what a successful run came to. -/
def Evaluation.map {β γ : Type} (change : β → γ) (evaluation : Evaluation β) : Evaluation γ :=
  ⟨evaluation.events, change <$> evaluation.outcome⟩

/-! ### Runs -/

/-- A projection of elements to images, which is told how often it was called before in the same
run. -/
abbrev Mapper (α : Type) (β : Type := α) := Nat → α → Outcome β

/-- The projection that keeps every element as it is. -/
def Mapper.identity {α : Type} : Mapper α := fun _ element => pure element

namespace Query

variable {α β : Type}

/-- How many elements a run may accept. Without a limit there is room for the whole source. -/
def room (query : Query α β) : Nat :=
  match query.limit with
  | some count => count.toNat
  | none => query.source.length

/-- Tests and projects the elements of a list in turn while there is room, after a number of earlier
projections. -/
def gather (predicate : Predicate α) (mapper : Mapper α β) (room earlierCalls : Nat) :
    List α → Outcome (List β)
  | [] => pure []
  | element :: rest =>
    match room with
    | 0 => pure []
    | fewer + 1 => do
      if ← predicate.test element then
        let image ← mapper earlierCalls element
        return image :: (← gather predicate mapper fewer (earlierCalls + 1) rest)
      else gather predicate mapper (fewer + 1) earlierCalls rest

/-- Without room, nothing is tested. -/
theorem gather_zero (predicate : Predicate α) (mapper : Mapper α β) (earlierCalls : Nat)
    (items : List α) : gather predicate mapper 0 earlierCalls items = pure [] := by
  cases items <;> rfl

/-- A rejected element takes no room and is not projected. -/
theorem gather_cons_of_rejected {predicate : Predicate α} {element : α} {trace : List LogEntry}
    (rejected : predicate.test element = ⟨trace, .ok false⟩) (mapper : Mapper α β)
    (room earlierCalls : Nat) (rest : List α) :
    gather predicate mapper (room + 1) earlierCalls (element :: rest) =
      (gather predicate mapper (room + 1) earlierCalls rest).behind trace := by
  rw [gather, rejected]
  rfl

/-- An accepted element is projected before the next one is tested. -/
theorem gather_cons_of_accepted {predicate : Predicate α} {element : α} {trace : List LogEntry}
    (accepted : predicate.test element = ⟨trace, .ok true⟩) (mapper : Mapper α β)
    (room earlierCalls : Nat) (rest : List α) :
    gather predicate mapper (room + 1) earlierCalls (element :: rest) =
      (mapper earlierCalls element >>= fun image =>
        (image :: ·) <$> gather predicate mapper room (earlierCalls + 1) rest).behind trace := by
  rw [gather, accepted]
  rfl

/-- The projections of the accepted elements. -/
def projected (query : Query α β) (mapper : Mapper α β) : Outcome (List β) :=
  gather query.predicate mapper query.room 0 query.source

/-- What remains of a list after duplicates are dropped and a page is cut. -/
def remaining [BEq β] (query : Query α β) (paging : Option Paging) (items : List β) : List β :=
  let kept := query.stage.deduplication.apply items
  match paging with
  | some paging => paging.slice kept
  | none => kept

/-- What remains depends on what becomes of duplicates, and on nothing else in the query. -/
theorem remaining_congr [BEq β] {query other : Query α β}
    (same : other.stage.deduplication = query.stage.deduplication) (paging : Option Paging)
    (items : List β) : other.remaining paging items = query.remaining paging items := by
  unfold remaining
  rw [same]

/-- Runs a query. -/
def evaluate [BEq β] [Ord β] (query : Query α β) (mapper : Mapper α β) (paging : Option Paging) :
    Evaluation (List β) :=
  let gathered := query.projected mapper
  let found :=
    match gathered.result with
    | .ok items => [.materialized items.length (query.remaining paging items).length]
    | .error _ => []
  { events := .started query.source.length query.limit paging :: found
    outcome := do
      let items ← gathered
      query.stage.sorting.apply (query.remaining paging items) }

end Query

/-! ### Selections -/

/-- How much of its result a run answers. -/
inductive Extent where
  | all
  | page (paging : Paging)
  | first
  deriving DecidableEq

/-- What a call that runs a query makes of the elements. Without a mapper they are their own
images. -/
inductive Projection (α : Type) (β : Type := α) where
  | plain (same : α = β)
  | mapped (mapper : Mapper α β)

namespace Projection

variable {α β : Type}

/-- The projection of the elements, by the mapper if there is one. -/
def mapper : Projection α β → Mapper α β
  | .plain same => same ▸ Mapper.identity
  | .mapped mapper => mapper

/-- Whether there is a mapper. -/
def isMapped : Projection α β → Bool
  | .plain _ => false
  | .mapped _ => true

/-- The projection by a mapper that may be left out. -/
def ofOption : Option (Mapper α) → Projection α
  | none => .plain rfl
  | some mapper => .mapped mapper

instance : Coe (Option (Mapper α)) (Projection α) := ⟨ofOption⟩

end Projection

/-- A call that runs a query, with or without a mapper. -/
structure Selection (α : Type) (β : Type := α) where
  projection : Projection α β
  extent : Extent

/-- The answer of a run: elements, or at most one. -/
inductive Found (β : Type) where
  | elements (items : List β)
  | first (element : Option β)
  deriving DecidableEq

namespace Extent

/-- The page that a run cuts. Only the first element is taken after the whole run. -/
def paging : Extent → Option Paging
  | .page paging => some paging
  | .all | .first => none

/-- The answer that is made of the elements of a run. -/
def answer {β : Type} : Extent → List β → Found β
  | .all, items | .page _, items => .elements items
  | .first, items => .first items.head?

end Extent

/-- Whether a selection is offered: a comparator fixes what a query selects, so elements can then
only be selected by way of a mapper. -/
def Stage.offers {α β : Type} (stage : Stage β) (selection : Selection α β) : Bool :=
  !stage.isPinned || selection.projection.isMapped

/-- Without a comparator, every selection is offered. -/
theorem Stage.offers_of_not_isPinned {α β : Type} {stage : Stage β}
    (notPinned : stage.sorting.isPinned = false) (selection : Selection α β) :
    stage.offers selection := by
  rw [offers, isPinned, notPinned]
  rfl

/-- Runs a query for a selection, if the selection is offered at its stage. -/
def Query.select? {α β : Type} [BEq β] [Ord β] (query : Query α β) (selection : Selection α β) :
    Option (Evaluation (Found β)) :=
  if query.stage.offers selection then
    some ((query.evaluate selection.projection.mapper selection.extent.paging).map
      selection.extent.answer)
  else none

end StagedQuery
