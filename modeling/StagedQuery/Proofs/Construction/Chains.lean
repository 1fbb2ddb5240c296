/-
This file proves what the calls of a chain leave behind in the query that they
build.

A chain says four things: which elements pass, how many of them are kept, whether
duplicates are dropped, and how the rest is sorted. Each is read off the calls
alone, without the stages: the checks are combined from left to right, the last
limit counts, one call drops duplicates for good, and one ordering is enough to
sort. A legal chain builds the query that says the same. The invariant is carried
from one call to the next; all that a stage has to add is that no limit can stand
in front of an ordering.
-/

import Mathlib.Data.List.Induction
import StagedQuery.Proofs.Run.Calls

namespace StagedQuery

variable {α β : Type}

/-! ### What a call says -/

namespace Refinement

/-- Whether an element that passed before the call, or did not, passes after it. A check that fails
lets nothing pass. -/
def passes (element : α) (before : Bool) : Refinement α β → Bool
  | .filter check | .and check => before && (Predicate.of check).accepts element
  | .or check => before || (Predicate.of check).accepts element
  | .ordered | .orderBy _ | .distinct | .limit _ => before

/-- The limit that a call sets. -/
def limit? : Refinement α β → Option UInt64
  | .limit count => some count
  | .filter _ | .and _ | .or _ | .ordered | .orderBy _ | .distinct => none

/-- Whether a call drops duplicates. -/
def isDistinct : Refinement α β → Bool
  | .distinct => true
  | .filter _ | .and _ | .or _ | .ordered | .orderBy _ | .limit _ => false

/-- How a call sorts, if it is an ordering. -/
def sorting? : Refinement α β → Option (Sorting β)
  | .ordered => some .natural
  | .orderBy comparator => some (.byComparator comparator)
  | .filter _ | .and _ | .or _ | .distinct | .limit _ => none

end Refinement

/-! ### What a chain says -/

/-- The calls that build a query, in the order in which they are made. -/
abbrev Chain (α : Type) (β : Type := α) := List (Refinement α β)

namespace Chain

/-- Whether an element passes the checks of a chain, combined from left to right. Without a check,
every element passes. -/
def passes (chain : Chain α β) (element : α) : Bool :=
  chain.foldl (fun before refinement => refinement.passes element before) true

/-- The last limit of a chain. -/
def limit? (chain : Chain α β) : Option UInt64 := (chain.filterMap Refinement.limit?).getLast?

/-- Whether a chain drops duplicates anywhere. -/
def isDistinct (chain : Chain α β) : Bool := chain.any Refinement.isDistinct

/-- How a chain sorts. -/
def sorting (chain : Chain α β) : Sorting β :=
  ((chain.filterMap Refinement.sorting?).getLast?).getD .unsorted

/-- A chain that sorts was told how. -/
theorem exists_mem_of_sorting {chain : Chain α β} {strategy : Sorting β}
    (sorts : sorting chain = strategy) (sorted : strategy ≠ .unsorted) :
    ∃ refinement ∈ chain, refinement.sorting? = some strategy := by
  unfold sorting at sorts
  cases last : (chain.filterMap Refinement.sorting?).getLast? with
  | none =>
    rw [last] at sorts
    exact absurd sorts.symm sorted
  | some found =>
    rw [last, Option.getD_some] at sorts
    exact List.mem_filterMap.mp (List.mem_of_getLast? (sorts ▸ last))

/-- A chain that sorts by a comparator was given it. -/
theorem orderBy_mem_of_sorting_eq {chain : Chain α β} {comparator : Comparator β}
    (sorts : sorting chain = .byComparator comparator) : .orderBy comparator ∈ chain := by
  obtain ⟨refinement, member, told⟩ := exists_mem_of_sorting sorts nofun
  cases refinement with
  | orderBy other =>
    cases told
    exact member
  | filter _ | and _ | or _ | ordered | distinct | limit _ => nomatch told

section

variable (chain : Chain α β) (refinement : Refinement α β)

theorem passes_concat (element : α) :
    passes (chain ++ [refinement]) element = refinement.passes element (passes chain element) := by
  unfold passes
  rw [List.foldl_append, List.foldl_cons, List.foldl_nil]

theorem limit?_concat :
    limit? (chain ++ [refinement]) = refinement.limit?.or (limit? chain) := by
  unfold limit?
  rw [List.filterMap_append, List.getLast?_append]
  cases said : refinement.limit? <;> simp [said]

theorem isDistinct_concat :
    isDistinct (chain ++ [refinement]) = (isDistinct chain || refinement.isDistinct) := by
  unfold isDistinct
  rw [List.any_append, List.any_cons, List.any_nil, Bool.or_false]

theorem sorting_concat :
    sorting (chain ++ [refinement]) = refinement.sorting?.getD (sorting chain) := by
  unfold sorting
  rw [List.filterMap_append, List.getLast?_append]
  cases said : refinement.sorting? <;> simp [said]

end

end Chain

/-! ### Stages after a call -/

namespace Stage

/-- Whether neither an ordering nor anything after it has been spoken of. -/
def isPlain : Stage β → Bool
  | .unfiltered | .filtered => true
  | .ordered | .orderedBy _ | .special _ _ => false

variable {stage next : Stage β} {refinement : Refinement α β}

theorem sorting_of_next? (offered : stage.next? refinement = some next) :
    next.sorting = refinement.sorting?.getD stage.sorting := by
  cases stage <;> cases refinement <;> cases offered <;> rfl

theorem deduplication_of_next? (offered : stage.next? refinement = some next) :
    next.deduplication = if refinement.isDistinct then .distinct else stage.deduplication := by
  cases stage <;> cases refinement <;> cases offered <;> rfl

/-- A plain stage is reached from plain stages only, and not by a limit. -/
theorem isPlain_of_next? (offered : stage.next? refinement = some next) (plain : next.isPlain) :
    stage.isPlain ∧ refinement.limit? = none := by
  cases stage <;> cases refinement <;> cases offered <;> first | exact ⟨rfl, rfl⟩ | nomatch plain

/-- Only a plain stage offers an ordering. -/
theorem isPlain_of_orderBy {comparator : Comparator β}
    (offered : stage.next? (.orderBy comparator : Refinement α β) = some next) :
    stage.isPlain := by
  cases stage <;> cases offered <;> rfl

end Stage

/-! ### Predicates after a call -/

/-- If a combination of tests succeeds, so does its first part, and what the call makes of that is
what the combination accepts. -/
theorem Refinement.passes_of_ok {refinement : Refinement α β} {predicate : Predicate α}
    {element : α} {accepted : Bool}
    (ended : ((refinement.predicateAfter predicate).test element).result = .ok accepted) :
    ∃ before, (predicate.test element).result = .ok before ∧
      refinement.passes element before = accepted := by
  cases refinement with
  | filter check | and check =>
    obtain ⟨before, first, second⟩ := Outcome.exists_ok_of_bind_ok ended
    refine ⟨before, first, ?_⟩
    cases before with
    | false => exact Except.ok.inj second
    | true => exact Predicate.accepts_of_ok second
  | or check =>
    obtain ⟨before, first, second⟩ := Outcome.exists_ok_of_bind_ok ended
    refine ⟨before, first, ?_⟩
    cases before with
    | false => exact Predicate.accepts_of_ok second
    | true => exact Except.ok.inj second
  | ordered | orderBy _ | distinct | limit _ => exact ⟨accepted, ended, rfl⟩

/-! ### Queries after a chain -/

namespace Chain

/-- A query on a source that does what a chain says. -/
structure Describes (source : List α) (chain : Chain α β) (query : Query α β) : Prop where
  source_eq : query.source = source
  passes_eq : ∀ element accepted, (query.predicate.test element).result = .ok accepted →
    passes chain element = accepted
  limit_eq : query.limit = limit? chain
  deduplication_eq : query.stage.deduplication = if isDistinct chain then .distinct else .keepAll
  sorting_eq : query.stage.sorting = sorting chain
  limit_eq_none : query.stage.isPlain → query.limit = none

theorem describes_nil (source : List α) :
    Describes source ([] : Chain α β) (Query.ofList source) where
  source_eq := rfl
  passes_eq _ _ ended := Except.ok.inj ended
  limit_eq := rfl
  deduplication_eq := rfl
  sorting_eq := rfl
  limit_eq_none _ := rfl

/-- A call that is offered changes what the query does to what the chain says with it. -/
theorem Describes.concat {source : List α} {chain : Chain α β} {query refined : Query α β}
    {refinement : Refinement α β} (described : Describes source chain query)
    (offered : query.refine? refinement = some refined) :
    Describes source (chain ++ [refinement]) refined := by
  obtain ⟨stage, next, rfl⟩ := Option.map_eq_some_iff.mp offered
  constructor
  case source_eq => exact described.source_eq
  case passes_eq =>
    intro element accepted ended
    obtain ⟨before, first, passes⟩ := Refinement.passes_of_ok ended
    rw [passes_concat, described.passes_eq element before first, passes]
  case limit_eq =>
    rw [limit?_concat, ← described.limit_eq]
    cases refinement with
    | limit count => rfl
    | orderBy comparator => exact (described.limit_eq_none (Stage.isPlain_of_orderBy next)).symm
    | filter _ | and _ | or _ | ordered | distinct => rfl
  case deduplication_eq =>
    rw [isDistinct_concat, Stage.deduplication_of_next? next, described.deduplication_eq]
    cases refinement.isDistinct <;> simp
  case sorting_eq => rw [sorting_concat, Stage.sorting_of_next? next, described.sorting_eq]
  case limit_eq_none =>
    intro plain
    obtain ⟨wasPlain, unlimited⟩ := Stage.isPlain_of_next? next plain
    have none := described.limit_eq_none wasPlain
    cases refinement with
    | limit count => nomatch unlimited
    | orderBy comparator => rfl
    | filter _ | and _ | or _ | ordered | distinct => exact none

/-- What holds of the whole list and stays true with every call that is offered holds behind every
legal chain. -/
theorem legal_induction {source : List α} (holds : Chain α β → Query α β → Prop)
    (nil : holds [] (.ofList source))
    (concat : ∀ chain query refinement refined,
      (Query.ofList source).refineAll? chain = some query → holds chain query →
        query.refine? refinement = some refined → holds (chain ++ [refinement]) refined)
    {chain : Chain α β} {query : Query α β}
    (legal : (Query.ofList source).refineAll? chain = some query) : holds chain query := by
  induction chain using List.reverseRecOn generalizing query with
  | nil =>
    cases legal
    exact nil
  | append_singleton chain refinement inductionHypothesis =>
    unfold Query.refineAll? at legal
    rw [List.foldlM_append] at legal
    obtain ⟨before, earlier, last⟩ := Option.bind_eq_some_iff.mp legal
    exact concat chain before refinement query earlier (inductionHypothesis earlier)
      (by simpa using last)

/-- A legal chain builds a query that does what the chain says. -/
theorem describes_of_legal {source : List α} {chain : Chain α β} {query : Query α β}
    (legal : (Query.ofList source).refineAll? chain = some query) :
    Describes source chain query :=
  legal_induction (Describes source) (describes_nil source)
    (fun _ _ _ _ _ described offered => described.concat offered) legal

end Chain

end StagedQuery
