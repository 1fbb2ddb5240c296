/-
This file proves that a legal chain stays legal if its calls on sorting or on duplicates
are left out, and that the query which it then builds gathers the same images.

The two queries need not be at the same stage any more. But they are as long as nothing
was left out, and once something was, the longer chain is at a stage which offers no more
than every stage does. So whatever call comes next in the longer chain, the shorter one
can make it too. In either way the limit is kept: a comparator starts a query without one,
but where it can be given there is none.
-/

import StagedQuery.Proofs.Construction.States
import StagedQuery.Proofs.Run.Gathering

namespace StagedQuery

variable {α β : Type}

/-! ### Calls that can be left out -/

namespace Refinement

/-- Whether a call is on sorting or on duplicates. -/
def isArranging : Refinement α β → Bool
  | .ordered | .orderBy _ | .distinct => true
  | .filter _ | .and _ | .or _ | .limit _ => false

theorem predicateAfter_of_isArranging {refinement : Refinement α β}
    (arranging : refinement.isArranging) (predicate : Predicate α) :
    refinement.predicateAfter predicate = predicate := by
  cases refinement with
  | ordered | orderBy _ | distinct => rfl
  | filter _ | and _ | or _ | limit _ => nomatch arranging

end Refinement

namespace Stage

variable {stage next : Stage β} {refinement : Refinement α β}

/-- Where nothing can be ordered any more, the calls are on duplicates or on the limit. -/
theorem isEnding_of_next? (notPlain : stage.isPlain = false)
    (offered : stage.next? refinement = some next) : refinement.isEnding := by
  cases stage <;> cases refinement <;> cases offered <;> first | rfl | nomatch notPlain

theorem isPlain_eq_false_of_isArranging (offered : stage.next? refinement = some next)
    (arranging : refinement.isArranging) : next.isPlain = false := by
  cases stage <;> cases refinement <;> cases offered <;> first | rfl | nomatch arranging

end Stage

/-! ### Queries with and without these calls -/

namespace Query

/-- What a query has in common with another one that is built by the same calls and perhaps some
more on sorting or duplicates. -/
structure Omits (plain query : Query α β) : Prop where
  source_eq : plain.source = query.source
  predicate_eq : plain.predicate = query.predicate
  limit_eq : plain.limit = query.limit
  stage_eq : query.stage.isPlain → plain.stage = query.stage

namespace Omits

variable {plain query refined : Query α β} {refinement : Refinement α β}

/-- A call that is offered to the query is offered without the omitted calls too. -/
theorem refine? (omits : plain.Omits query) (offered : query.refine? refinement = some refined) :
    ∃ refinedPlain, plain.refine? refinement = some refinedPlain ∧ refinedPlain.Omits refined := by
  obtain ⟨stage, next, rfl⟩ := Option.map_eq_some_iff.mp offered
  have same : ∃ plainStage, plain.stage.next? refinement = some plainStage ∧
      (stage.isPlain → plainStage = stage) := by
    by_cases isPlain : query.stage.isPlain
    · rw [omits.stage_eq isPlain]
      exact ⟨stage, next, fun _ => rfl⟩
    · have ending := Stage.isEnding_of_next? (Bool.eq_false_iff.mpr isPlain) next
      refine ⟨_, plain.stage.next?_of_isEnding ending, fun stillPlain => ?_⟩
      exact absurd (Stage.isPlain_of_next? next stillPlain).1 isPlain
  obtain ⟨plainStage, plainNext, stages⟩ := same
  refine ⟨_, Option.map_eq_some_iff.mpr ⟨plainStage, plainNext, rfl⟩, ?_⟩
  constructor
  case source_eq => exact omits.source_eq
  case predicate_eq => exact congrArg refinement.predicateAfter omits.predicate_eq
  case limit_eq => exact congrArg refinement.limitAfter omits.limit_eq
  case stage_eq => exact stages

/-- A call on sorting or duplicates can be left out. -/
theorem leaveOut (omits : plain.Omits query)
    (unlimited : query.stage.isPlain → query.limit = none)
    (offered : query.refine? refinement = some refined) (arranging : refinement.isArranging) :
    plain.Omits refined := by
  obtain ⟨stage, next, rfl⟩ := Option.map_eq_some_iff.mp offered
  constructor
  case source_eq => exact omits.source_eq
  case predicate_eq =>
    rw [omits.predicate_eq]
    exact (refinement.predicateAfter_of_isArranging arranging query.predicate).symm
  case limit_eq =>
    rw [omits.limit_eq]
    cases refinement with
    | ordered | distinct => rfl
    | orderBy comparator => exact unlimited (Stage.isPlain_of_orderBy next)
    | filter _ | and _ | or _ | limit _ => nomatch arranging
  case stage_eq =>
    intro isPlain
    rw [Stage.isPlain_eq_false_of_isArranging next arranging] at isPlain
    nomatch isPlain

/-- Neither sorting nor duplicates have a part in what is gathered. -/
theorem phase_eq (omits : plain.Omits query) (mapper : Mapper α β) :
    plain.phase mapper = query.phase mapper := by
  unfold phase
  rw [omits.source_eq, omits.predicate_eq, omits.limit_eq]

theorem projected_eq (omits : plain.Omits query) (mapper : Mapper α β) :
    plain.projected mapper = query.projected mapper := by
  rw [Phase.projected_eq, Phase.projected_eq, omits.phase_eq]

end Omits

end Query

/-! ### Chains with and without these calls -/

namespace Chain

variable {source : List α} {chain : Chain α β} {query : Query α β}

/-- A legal chain from which calls on sorting or duplicates are left out is legal. -/
theorem exists_legal_filter (legal : (Query.ofList source).refineAll? chain = some query)
    {stays : Refinement α β → Bool}
    (arranging : ∀ refinement, stays refinement = false → refinement.isArranging) :
    ∃ plain, (Query.ofList source).refineAll? (chain.filter stays) = some plain ∧
      plain.Omits query := by
  refine legal_induction (fun chain query => ∃ plain,
    (Query.ofList source).refineAll? (chain.filter stays) = some plain ∧ plain.Omits query)
    ⟨_, rfl, rfl, rfl, rfl, fun _ => rfl⟩ ?_ legal
  rintro chain query refinement refined legal ⟨plain, plainLegal, omits⟩ offered
  rw [List.filter_append]
  cases kept : stays refinement with
  | true =>
    obtain ⟨refinedPlain, plainOffered, stillOmits⟩ := omits.refine? offered
    refine ⟨refinedPlain, ?_, stillOmits⟩
    rw [List.filter_cons_of_pos kept, List.filter_nil, Query.refineAll?, List.foldlM_append]
    unfold Query.refineAll? at plainLegal
    rw [plainLegal]
    simpa using plainOffered
  | false =>
    have unlimited := (describes_of_legal legal).limit_eq_none
    refine ⟨plain, ?_, omits.leaveOut unlimited offered (arranging refinement kept)⟩
    rw [List.filter_cons_of_neg (Bool.eq_false_iff.mp kept), List.filter_nil, List.append_nil]
    exact plainLegal

/-- What a chain says of duplicates depends on its calls on duplicates only. -/
theorem isDistinct_filter {stays : Refinement α β → Bool}
    (kept : ∀ refinement : Refinement α β, refinement.isDistinct → stays refinement)
    (chain : Chain α β) : isDistinct (chain.filter stays) = isDistinct chain := by
  unfold isDistinct
  rw [List.any_filter]
  refine congrArg _ (funext fun refinement => ?_)
  cases drops : refinement.isDistinct with
  | false => rw [Bool.and_false]
  | true => rw [kept refinement drops, Bool.and_true]

/-- How a chain sorts depends on its calls on sorting only. -/
theorem sorting_filter {stays : Refinement α β → Bool}
    (kept : ∀ refinement : Refinement α β, refinement.sorting?.isSome → stays refinement)
    (chain : Chain α β) : sorting (chain.filter stays) = sorting chain := by
  have sameSortings : (chain.filter stays).filterMap Refinement.sorting? =
      chain.filterMap Refinement.sorting? := by
    rw [List.filterMap_filter]
    refine congrArg (fun told => chain.filterMap told) (funext fun refinement => ?_)
    cases sorts : refinement.sorting? with
    | none => exact ite_self none
    | some strategy => exact if_pos (kept refinement (Option.isSome_of_eq_some sorts))
  unfold sorting
  rw [sameSortings]

/-- Without its calls on sorting, a legal chain builds a query that leaves its images unsorted. -/
theorem exists_unsorted (legal : (Query.ofList source).refineAll? chain = some query) :
    ∃ plain, (Query.ofList source).refineAll?
        (chain.filter fun refinement => refinement.sorting?.isNone) = some plain ∧
      plain.Omits query ∧ plain.stage.sorting = .unsorted ∧
        plain.stage.deduplication = query.stage.deduplication := by
  have arranging : ∀ refinement : Refinement α β, refinement.sorting?.isNone = false →
      refinement.isArranging := by
    rintro (_ | _ | _ | _ | _ | _ | _) sorts <;> first | rfl | nomatch sorts
  have kept : ∀ refinement : Refinement α β, refinement.isDistinct →
      refinement.sorting?.isNone := by
    rintro (_ | _ | _ | _ | _ | _ | _) drops <;> first | rfl | nomatch drops
  obtain ⟨plain, plainLegal, omits⟩ := exists_legal_filter legal arranging
  refine ⟨plain, plainLegal, omits, ?_, ?_⟩
  · have noSorting : (chain.filter fun refinement => refinement.sorting?.isNone).filterMap
        Refinement.sorting? = [] := by
      refine List.filterMap_eq_nil_iff.mpr fun refinement member => ?_
      exact Option.isNone_iff_eq_none.mp (List.mem_filter.mp member).2
    rw [(describes_of_legal plainLegal).sorting_eq, sorting, noSorting]
    rfl
  · rw [(describes_of_legal plainLegal).deduplication_eq, isDistinct_filter kept,
      ← (describes_of_legal legal).deduplication_eq]

/-- Without its calls on duplicates, a legal chain builds a query that keeps them and sorts as
before. -/
theorem exists_keepAll (legal : (Query.ofList source).refineAll? chain = some query) :
    ∃ plain, (Query.ofList source).refineAll?
        (chain.filter fun refinement => !refinement.isDistinct) = some plain ∧
      plain.Omits query ∧ plain.stage.deduplication = .keepAll ∧
        plain.stage.sorting = query.stage.sorting := by
  have arranging : ∀ refinement : Refinement α β, (!refinement.isDistinct) = false →
      refinement.isArranging := by
    rintro (_ | _ | _ | _ | _ | _ | _) drops <;> first | rfl | nomatch drops
  have kept : ∀ refinement : Refinement α β, refinement.sorting?.isSome →
      !refinement.isDistinct := by
    rintro (_ | _ | _ | _ | _ | _ | _) sorts <;> first | rfl | nomatch sorts
  obtain ⟨plain, plainLegal, omits⟩ := exists_legal_filter legal arranging
  refine ⟨plain, plainLegal, omits, ?_, ?_⟩
  · have keeps : isDistinct (chain.filter fun refinement => !refinement.isDistinct) = false := by
      refine List.any_eq_false.mpr fun refinement member => ?_
      simpa using (List.mem_filter.mp member).2
    rw [(describes_of_legal plainLegal).deduplication_eq, keeps]
    rfl
  · rw [(describes_of_legal plainLegal).sorting_eq, sorting_filter kept,
      ← (describes_of_legal legal).sorting_eq]

end Chain

end StagedQuery
