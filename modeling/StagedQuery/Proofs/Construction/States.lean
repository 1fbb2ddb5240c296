/-
This file proves which state a legal chain of calls leads to, so that no call of the
chain is lost.

A comparator starts its query without a limit, whatever limit there was. This loses
nothing because of an invariant that no run checks: limits and duplicates are spoken
of in special stages only, and such a stage offers no ordering any more. The state
can therefore be read off the chain, and of the calls that end a chain it keeps no
more than whether duplicates are dropped and the last limit. Copies change nothing:
in a session, where queries are copied and copies go their own ways, every query has
the state that its own derivation leads to.
-/

import StagedQuery.Proofs.Session.Derivations

namespace StagedQuery

variable {α β : Type}

/-! ### Special stages -/

/-- Whether a call is on duplicates or on the limit. -/
def Refinement.isEnding : Refinement α β → Bool
  | .distinct | .limit _ => true
  | .filter _ | .and _ | .or _ | .ordered | .orderBy _ => false

namespace Stage

/-- Whether duplicates or a limit have been spoken of. -/
def isSpecial : Stage β → Bool
  | .special _ _ => true
  | .unfiltered | .filtered | .ordered | .orderedBy _ => false

theorem exists_special_iff {stage : Stage β} {deduplication : Deduplication} :
    (∃ sorting, stage = .special sorting deduplication) ↔
      stage.isSpecial ∧ stage.deduplication = deduplication := by
  cases stage with
  | special sorting other =>
    constructor
    · rintro ⟨_, same⟩
      cases same
      exact ⟨rfl, rfl⟩
    · rintro ⟨_, same⟩
      exact ⟨sorting, congrArg _ same⟩
  | unfiltered | filtered | ordered | orderedBy _ =>
    constructor
    · rintro ⟨_, same⟩
      nomatch same
    · rintro ⟨special, _⟩
      nomatch special

variable {stage next : Stage β} {refinement : Refinement α β}

/-- Duplicates are dropped in special stages only. -/
theorem isSpecial_of_deduplication (drops : stage.deduplication = .distinct) : stage.isSpecial := by
  cases stage with
  | special _ _ => rfl
  | unfiltered | filtered | ordered | orderedBy _ => nomatch drops

/-- Calls on duplicates and the limit lead to special stages, and no call leads out of them. -/
theorem isSpecial_of_next? (offered : stage.next? refinement = some next) :
    next.isSpecial = (stage.isSpecial || refinement.isEnding) := by
  cases stage <;> cases refinement <;> cases offered <;> rfl

/-- An ordering is offered only where there is none yet. -/
theorem sorting_of_sorting? {sorting : Sorting β} (offered : stage.next? refinement = some next)
    (sorts : refinement.sorting? = some sorting) : stage.sorting = .unsorted := by
  cases stage <;> cases refinement <;> cases offered <;> cases sorts <;> rfl

/-- Every stage offers the calls on duplicates and the limit. -/
theorem next?_of_isEnding (stage : Stage β) (ending : refinement.isEnding) :
    stage.next? refinement = some (.special stage.sorting
      (if refinement.isDistinct then .distinct else stage.deduplication)) := by
  cases refinement with
  | distinct | limit _ => cases stage <;> rfl
  | filter _ | and _ | or _ | ordered | orderBy _ => nomatch ending

end Stage

/-! ### Checks of a call -/

namespace Refinement

variable {refinement : Refinement α β} {element : α}

/-- Whether the check of a call, if it has one, does not fail on an element. -/
def ChecksSuccessfully (element : α) : Refinement α β → Prop
  | .filter check | .and check | .or check => ∃ accepted, (check element).result = .ok accepted
  | .ordered | .orderBy _ | .distinct | .limit _ => True

theorem exists_test_ok (succeeds : refinement.ChecksSuccessfully element)
    {predicate : Predicate α} {before : Bool}
    (tested : (predicate.test element).result = .ok before) :
    ∃ accepted, ((refinement.predicateAfter predicate).test element).result = .ok accepted := by
  cases refinement with
  | filter check | and check =>
    rw [predicateAfter, Predicate.test, Outcome.bind_of_ok tested]
    cases before with
    | false => exact ⟨false, rfl⟩
    | true => exact succeeds
  | or check =>
    rw [predicateAfter, Predicate.test, Outcome.bind_of_ok tested]
    cases before with
    | false => exact succeeds
    | true => exact ⟨true, rfl⟩
  | ordered | orderBy _ | distinct | limit _ => exact ⟨before, tested⟩

end Refinement

/-! ### States -/

namespace Chain

/-- The state of a query on a source behind a chain. -/
structure Reaches (source : List α) (chain : Chain α β) (query : Query α β) : Prop where
  source_eq : query.source = source
  passes_eq : ∀ element accepted, (query.predicate.test element).result = .ok accepted →
    passes chain element = accepted
  exists_test_ok : ∀ element,
    (∀ refinement ∈ chain, refinement.ChecksSuccessfully element) →
      ∃ accepted, (query.predicate.test element).result = .ok accepted
  limit_eq : query.limit = limit? chain
  limit_eq_none : query.stage.isSpecial = false → query.limit = none
  isSome_limit : ∀ sorting, query.stage = .special sorting .keepAll → query.limit.isSome
  distinct_iff : (∃ sorting, query.stage = .special sorting .distinct) ↔ .distinct ∈ chain
  natural_iff : query.stage.sorting = .natural ↔ .ordered ∈ chain
  byComparator_iff : ∀ comparator,
    query.stage.sorting = .byComparator comparator ↔ .orderBy comparator ∈ chain
  isPinned_iff : query.stage.isPinned ↔ ∃ comparator, .orderBy comparator ∈ chain
  unsorted_iff : query.stage.sorting = .unsorted ↔
    .ordered ∉ chain ∧ ∀ comparator, .orderBy comparator ∉ chain

variable {source : List α} {chain : Chain α β} {query : Query α β}

/-- A test succeeds if every check of the chain does. -/
theorem exists_test_ok_of_legal (legal : (Query.ofList source).refineAll? chain = some query)
    {element : α} (succeed : ∀ refinement ∈ chain, refinement.ChecksSuccessfully element) :
    ∃ accepted, (query.predicate.test element).result = .ok accepted := by
  refine legal_induction (fun chain query =>
    (∀ refinement ∈ chain, refinement.ChecksSuccessfully element) →
      ∃ accepted, (query.predicate.test element).result = .ok accepted)
    (fun _ => ⟨true, rfl⟩) ?_ legal succeed
  intro chain query refinement refined _ before offered succeed
  obtain ⟨stage, next, rfl⟩ := Option.map_eq_some_iff.mp offered
  obtain ⟨earlier, last⟩ := List.forall_mem_append.mp succeed
  obtain ⟨accepted, tested⟩ := before earlier
  exact Refinement.exists_test_ok (last refinement (List.mem_singleton_self _)) tested

theorem isSpecial_of_legal (legal : (Query.ofList source).refineAll? chain = some query) :
    query.stage.isSpecial = chain.any Refinement.isEnding := by
  refine legal_induction (fun chain query => query.stage.isSpecial = chain.any Refinement.isEnding)
    rfl ?_ legal
  intro chain query refinement refined _ before offered
  obtain ⟨stage, next, rfl⟩ := Option.map_eq_some_iff.mp offered
  show stage.isSpecial = _
  rw [Stage.isSpecial_of_next? next, before, List.any_append, List.any_cons, List.any_nil,
    Bool.or_false]

/-- No two calls of a legal chain sort, so the one that does is the last one. -/
theorem sorting_eq_of_mem (legal : (Query.ofList source).refineAll? chain = some query)
    {refinement : Refinement α β} {strategy : Sorting β} (member : refinement ∈ chain)
    (sorts : refinement.sorting? = some strategy) : query.stage.sorting = strategy := by
  refine legal_induction (fun chain query => refinement ∈ chain → query.stage.sorting = strategy)
    nofun ?_ legal member
  intro chain query last refined _ before offered member
  obtain ⟨stage, next, rfl⟩ := Option.map_eq_some_iff.mp offered
  show stage.sorting = strategy
  rw [Stage.sorting_of_next? next]
  rcases List.mem_append.mp member with earlier | isLast
  · cases sortsAgain : last.sorting? with
    | none => exact before earlier
    | some other =>
      have unsorted := Stage.sorting_of_sorting? next sortsAgain
      rw [before earlier] at unsorted
      rw [unsorted] at sorts
      cases refinement <;> nomatch sorts
  · rw [← List.eq_of_mem_singleton isLast, sorts]
    rfl

theorem sorting_eq_iff (legal : (Query.ofList source).refineAll? chain = some query)
    {refinement : Refinement α β} {strategy : Sorting β}
    (sorts : ∀ other : Refinement α β, other.sorting? = some strategy ↔ other = refinement)
    (sorted : strategy ≠ .unsorted) : query.stage.sorting = strategy ↔ refinement ∈ chain := by
  rw [(describes_of_legal legal).sorting_eq]
  constructor
  · intro same
    obtain ⟨other, member, told⟩ := exists_mem_of_sorting same sorted
    rwa [← (sorts other).mp told]
  · intro member
    rw [← (describes_of_legal legal).sorting_eq]
    exact sorting_eq_of_mem legal member ((sorts refinement).mpr rfl)

theorem isDistinct_iff_mem : isDistinct chain ↔ .distinct ∈ chain := by
  unfold isDistinct
  rw [List.any_eq_true]
  constructor
  · rintro ⟨refinement, member, drops⟩
    cases refinement with
    | distinct => exact member
    | filter _ | and _ | or _ | ordered | orderBy _ | limit _ => nomatch drops
  · intro member
    exact ⟨.distinct, member, rfl⟩

theorem isSome_limit?_iff_mem : (limit? chain).isSome ↔ ∃ count, .limit count ∈ chain := by
  unfold limit?
  rw [List.getLast?_isSome]
  constructor
  · intro nonempty
    obtain ⟨count, found⟩ := List.exists_mem_of_ne_nil _ nonempty
    obtain ⟨refinement, member, said⟩ := List.mem_filterMap.mp found
    cases refinement with
    | limit other => exact ⟨other, member⟩
    | filter _ | and _ | or _ | ordered | orderBy _ | distinct => nomatch said
  · rintro ⟨count, member⟩
    exact List.ne_nil_of_mem (List.mem_filterMap.mpr ⟨.limit count, member, rfl⟩)

/-- A legal chain leads to the state that is read off it. -/
theorem reaches_of_legal (legal : (Query.ofList source).refineAll? chain = some query) :
    Reaches source chain query := by
  have described := describes_of_legal legal
  have special := isSpecial_of_legal legal
  have natural : query.stage.sorting = .natural ↔ .ordered ∈ chain :=
    sorting_eq_iff legal (by rintro (_ | _ | _ | _ | _ | _ | _) <;> simp [Refinement.sorting?])
      nofun
  have byComparator (comparator : Comparator β) :
      query.stage.sorting = .byComparator comparator ↔ .orderBy comparator ∈ chain :=
    sorting_eq_iff legal (by rintro (_ | _ | _ | _ | _ | _ | _) <;> simp [Refinement.sorting?])
      nofun
  constructor
  case source_eq => exact described.source_eq
  case passes_eq => exact described.passes_eq
  case exists_test_ok => exact fun element => exists_test_ok_of_legal legal
  case limit_eq => exact described.limit_eq
  case limit_eq_none =>
    intro notSpecial
    rw [special, List.any_eq_false] at notSpecial
    rw [described.limit_eq, Option.eq_none_iff_forall_ne_some]
    intro count limited
    obtain ⟨other, member⟩ := isSome_limit?_iff_mem.mp (Option.isSome_of_eq_some limited)
    exact notSpecial _ member rfl
  case isSome_limit =>
    intro sorting stage
    rw [stage] at special
    have keeps := described.deduplication_eq
    obtain ⟨refinement, member, ending⟩ := List.any_eq_true.mp special.symm
    rw [described.limit_eq, isSome_limit?_iff_mem]
    cases refinement with
    | limit count => exact ⟨count, member⟩
    | distinct =>
      rw [stage, if_pos (isDistinct_iff_mem.mpr member)] at keeps
      nomatch keeps
    | filter _ | and _ | or _ | ordered | orderBy _ => nomatch ending
  case distinct_iff =>
    have drops : query.stage.deduplication = .distinct ↔ isDistinct chain := by
      rw [described.deduplication_eq]
      cases isDistinct chain <;> simp
    rw [Stage.exists_special_iff, ← isDistinct_iff_mem, ← drops]
    exact and_iff_right_of_imp Stage.isSpecial_of_deduplication
  case natural_iff => exact natural
  case byComparator_iff => exact byComparator
  case isPinned_iff =>
    simp only [← byComparator, Stage.isPinned]
    cases query.stage.sorting <;> simp [Sorting.isPinned]
  case unsorted_iff =>
    simp only [← natural, ← byComparator]
    cases query.stage.sorting <;> simp

/-! ### Endings -/

theorem refine?_of_isEnding (query : Query α β) {refinement : Refinement α β}
    (ending : refinement.isEnding) :
    query.refine? refinement = some
      { query with
        limit := refinement.limit?.or query.limit
        stage := .special query.stage.sorting
          (if refinement.isDistinct then .distinct else query.stage.deduplication) } := by
  rw [Query.refine?, query.stage.next?_of_isEnding ending]
  cases refinement with
  | distinct | limit _ => rfl
  | filter _ | and _ | or _ | ordered | orderBy _ => nomatch ending

/-- Of the calls that end a chain, the query keeps the last limit and whether duplicates are
dropped. -/
theorem refineAll?_of_isEnding (query : Query α β) {ending : Chain α β} (nonempty : ending ≠ [])
    (endings : ∀ refinement ∈ ending, refinement.isEnding) :
    query.refineAll? ending = some
      { query with
        limit := (limit? ending).or query.limit
        stage := .special query.stage.sorting
          (if isDistinct ending then .distinct else query.stage.deduplication) } := by
  induction ending using List.reverseRecOn with
  | nil => exact absurd rfl nonempty
  | append_singleton ending last inductionHypothesis =>
    obtain ⟨earlier, lastEnding⟩ := List.forall_mem_append.mp endings
    have ends := lastEnding last (List.mem_singleton_self last)
    have once (before : Query α β) :
        [last].foldlM Query.refine? before = before.refine? last := by simp
    rw [limit?_concat, isDistinct_concat, Query.refineAll?, List.foldlM_append]
    cases ending with
    | nil =>
      show [last].foldlM Query.refine? query = _
      rw [once, refine?_of_isEnding query ends, limit?, isDistinct, List.filterMap_nil,
        List.getLast?_nil, Option.or_none, List.any_nil, Bool.false_or]
    | cons first rest =>
      have built := inductionHypothesis (List.cons_ne_nil first rest) earlier
      unfold Query.refineAll? at built
      rw [built]
      show [last].foldlM Query.refine? _ = _
      rw [once, refine?_of_isEnding _ ends, Option.or_assoc]
      cases isDistinct (first :: rest) <;> cases last.isDistinct <;> rfl

/-- No call of a legal chain is lost. The state of the query is read off the chain; calls that end
a chain lead to the same query, in whatever order and number they are made, if they agree on the
last limit and on whether duplicates are dropped; and every query that a session holds, copies
and what is built from them included, is in the state that its own derivation leads to. -/
theorem reaches_of_chain (source : List α) :
    (∀ (chain : Chain α β) (query : Query α β),
      (Query.ofList source).refineAll? chain = some query → Reaches source chain query) ∧
    (∀ front first second : Chain α β, first ≠ [] → second ≠ [] →
      (∀ refinement ∈ first, refinement.isEnding) →
      (∀ refinement ∈ second, refinement.isEnding) →
      limit? first = limit? second → isDistinct first = isDistinct second →
        (Query.ofList source).refineAll? (front ++ first) =
          (Query.ofList source).refineAll? (front ++ second)) ∧
    ∀ (values : List Value) (register : String) (steps : List Step) (name : String)
      (query : Query Value),
      ((Session.start values register).after steps).registers name = some query →
        ∃ chain, (Derivations.start register).after steps
            ((Session.start values register).run steps) name = some chain ∧
          (Query.ofList values).refineAll? chain = some query ∧ Reaches values chain query := by
  refine ⟨fun chain query => reaches_of_legal, ?_, ?_⟩
  · intro front first second firstNonempty secondNonempty firstEnds secondEnds limits distinct
    unfold Query.refineAll?
    rw [List.foldlM_append, List.foldlM_append]
    refine bind_congr fun query => ?_
    have firstBuilt := refineAll?_of_isEnding query firstNonempty firstEnds
    have secondBuilt := refineAll?_of_isEnding query secondNonempty secondEnds
    rw [limits, distinct, ← secondBuilt] at firstBuilt
    exact firstBuilt
  · intro values register steps name query held
    obtain ⟨chain, recorded, legal⟩ := Derivations.exists_legal_of_held held
    exact ⟨chain, recorded, legal, reaches_of_legal legal⟩

/-- A copy is limited and freed of duplicates in two ways, apart from the query that it was made
of. -/
theorem reaches_of_chain_of_copied :
    let isNumber : Value → Outcome Bool := fun element => pure (element matches .int _)
    let front : Chain Value := [.filter isNumber, .orderBy .natural]
    let steps : List Step :=
      [⟨.refine (.limit 5), none, "query", "query"⟩, ⟨.copy, none, "query", "copy"⟩,
        ⟨.refine .distinct, none, "copy", "copy"⟩, ⟨.refine .ordered, none, "copy", "copy"⟩]
    (Query.ofList []).refineAll? (front ++ [.limit 5, .distinct, .limit 3]) =
        (Query.ofList []).refineAll? (front ++ [.distinct, .distinct, .limit 3]) ∧
      (∃ query, (Query.ofList []).refineAll? (front ++ [.distinct]) = some query ∧
        Reaches [] (front ++ [.distinct]) query) ∧
      ∃ query, ((Session.start [] "query").after steps).registers "copy" = some query ∧
        Reaches [] [.limit 5, .distinct] query := by
  intro isNumber front steps
  obtain ⟨reached, agreeing, held⟩ := reaches_of_chain ([] : List Value)
  refine ⟨?_, ⟨_, rfl, reached (front ++ [.distinct]) _ rfl⟩, _, rfl, ?_⟩
  · exact agreeing front [.limit 5, .distinct, .limit 3] [.distinct, .distinct, .limit 3]
      (by simp) (by simp) (by simp [Refinement.isEnding]) (by simp [Refinement.isEnding]) rfl rfl
  · obtain ⟨chain, recorded, _, reaches⟩ := held [] "query" steps "copy" _ rfl
    obtain rfl : [.limit 5, .distinct] = chain := Option.some.inj recorded
    exact reaches

end Chain

end StagedQuery
