/-
This file proves that the shortcuts for lists do what queries on these lists do.

A shortcut goes through a list by itself. A query counts the room it has left, tests and
projects, and then sees to duplicates, a page and an order. As long as nothing was said
about these, and there is room for the whole list, all that is left of a run is the calls
on one element after the other, which are the calls of the shortcut. A query for one
element has room for one: its run ends behind the first element that is accepted, and the
question whether there is such an element is settled there too. Whether all elements are
accepted is the same question about the opposite test, which none of them may pass.
-/

import StagedQuery.OneShot
import StagedQuery.Proofs.Run.Limits

namespace StagedQuery

variable {α β : Type}

/-! ### Passes and gathering -/

namespace OneShot

/-- Where everything is accepted and there is room, gathering projects every element. -/
theorem gather_eq_mapFrom (mapper : Mapper α β) (earlierCalls : Nat) (items : List α) :
    Query.gather .acceptAll mapper items.length earlierCalls items =
      mapFrom mapper earlierCalls items := by
  induction items generalizing earlierCalls with
  | nil => rfl
  | cons element rest inductionHypothesis =>
    rw [List.length_cons, Query.gather, Predicate.test_acceptAll, pure_bind, if_pos rfl, mapFrom,
      inductionHypothesis]

/-- Where nothing is projected and there is room, gathering keeps the accepted elements. A test does
not know of earlier calls. -/
theorem gather_eq_filterFrom {predicate : Predicate α} {check : α → Outcome Bool}
    (tests : ∀ element, predicate.test element = check element) {room : Nat}
    (projections earlierCalls : Nat) {items : List α} (roomy : items.length ≤ room) :
    Query.gather predicate Mapper.identity room projections items =
      filterFrom (fun _ => check) earlierCalls items := by
  induction items generalizing room projections earlierCalls with
  | nil => rfl
  | cons element rest inductionHypothesis =>
    obtain ⟨fewer, rfl⟩ := Nat.exists_eq_add_of_le' (Nat.le_trans (Nat.succ_pos _) roomy)
    rw [Query.gather, tests, filterFrom]
    refine bind_congr fun accepted => ?_
    cases accepted with
    | false =>
      rw [if_neg Bool.false_ne_true,
        inductionHypothesis _ (earlierCalls + 1) (Nat.le_of_succ_le roomy)]
      exact (bind_pure _).symm
    | true =>
      rw [if_pos rfl, Mapper.identity, pure_bind,
        inductionHypothesis _ (earlierCalls + 1) (Nat.le_of_succ_le_succ roomy)]
      rfl

/-- With room for one element, gathering finds one if and only if some element is accepted. -/
theorem anyFrom_eq_gather {predicate : Predicate α} {check : α → Outcome Bool}
    (tests : ∀ element, predicate.test element = check element) (projections earlierCalls : Nat)
    (items : List α) :
    anyFrom (fun _ => check) earlierCalls items =
      (fun found => found.head?.isSome) <$>
        Query.gather predicate Mapper.identity 1 projections items := by
  induction items generalizing earlierCalls with
  | nil => rfl
  | cons element rest inductionHypothesis =>
    rw [Query.gather, tests, anyFrom, map_bind]
    refine bind_congr fun accepted => ?_
    cases accepted with
    | false => exact inductionHypothesis (earlierCalls + 1)
    | true =>
      rw [if_pos rfl, if_pos rfl, Query.gather_zero]
      rfl

/-! ### Questions -/

/-- Nothing behind an element that is accepted has a part in the question. -/
theorem anyFrom_append_cons {check : Nat → α → Outcome Bool} {earlierCalls : Nat} {front : List α}
    {element : α} (accepted : (check (earlierCalls + front.length) element).result = .ok true)
    (rest : List α) :
    anyFrom check earlierCalls (front ++ element :: rest) =
      anyFrom check earlierCalls (front ++ [element]) := by
  induction front generalizing earlierCalls with
  | nil =>
    rw [List.length_nil, Nat.add_zero] at accepted
    rw [List.nil_append, List.nil_append, anyFrom, anyFrom, Outcome.bind_of_ok accepted,
      Outcome.bind_of_ok accepted]
    rfl
  | cons first front inductionHypothesis =>
    rw [List.length_cons, Nat.add_comm front.length, ← Nat.add_assoc] at accepted
    rw [List.cons_append, List.cons_append, anyFrom, anyFrom, inductionHypothesis accepted]

/-- All elements are accepted unless one fails the opposite test. -/
theorem allFrom_eq_not_anyFrom (check : Nat → α → Outcome Bool) (earlierCalls : Nat)
    (items : List α) :
    allFrom check earlierCalls items =
      Bool.not <$>
        anyFrom (fun calls element => Bool.not <$> check calls element) earlierCalls items := by
  induction items generalizing earlierCalls with
  | nil => rfl
  | cons element rest inductionHypothesis =>
    rw [allFrom, anyFrom, map_bind, bind_map_left]
    refine bind_congr fun accepted => ?_
    cases accepted with
    | false => rfl
    | true => exact inductionHypothesis (earlierCalls + 1)

end OneShot

/-! ### Questions and searches -/

/-- What it means that a question is answered as a search for one element ends: yes if an element is
found, no if none is, and not at all if the search fails. -/
structure Outcome.SettledBy (question : Outcome Bool) (search : Outcome (Found α)) : Prop where
  yes_iff : question.result = .ok true ↔ ∃ element, search.result = .ok (.first (some element))
  no_iff : question.result = .ok false ↔ search.result = .ok (.first none)
  error_iff : ∀ fault, question.result = .error fault ↔ search.result = .error fault
  trace_eq : question.trace = search.trace

/-- The question whether anything is gathered is settled by the first element of it. -/
theorem Outcome.settledBy_first (gathered : Outcome (List α)) :
    SettledBy ((fun found => found.head?.isSome) <$> gathered)
      (Extent.first.answer <$> gathered) := by
  obtain ⟨trace, result⟩ := gathered
  constructor
  case trace_eq => rw [trace_map, trace_map]
  all_goals
    simp only [result_map]
    rcases result with fault | (_ | ⟨first, rest⟩) <;> simp [Except.map, Extent.answer]

/-! ### Runs that only gather -/

namespace Chain

variable [BEq β] [Ord β]

/-- The run of the query that a chain builds on a list, if all its calls and the selection are
offered. -/
def run? (chain : Chain α β) (source : List α) (selection : Selection α β) :
    Option (Evaluation (Found β)) := do
  let query ← (Query.ofList source).refineAll? chain
  query.select? selection

/-- If a query neither sorts nor drops duplicates, and no page is asked for, it answers what it
gathers. -/
theorem exists_run?_of_gathered {source : List α} {chain : Chain α β} {query : Query α β}
    (legal : (Query.ofList source).refineAll? chain = some query)
    (unsorted : query.stage.sorting = .unsorted)
    (keepsAll : query.stage.deduplication = .keepAll) {selection : Selection α β}
    (unpaged : selection.extent.paging = none) {gathered : Outcome (List β)}
    (gathers : query.projected selection.projection.mapper = gathered) :
    ∃ evaluation, chain.run? source selection = some evaluation ∧
      evaluation.outcome = selection.extent.answer <$> gathered := by
  have selected : query.select? selection = some _ :=
    if_pos (Stage.offers_of_not_isPinned (congrArg Sorting.isPinned unsorted) selection)
  have runs : chain.run? source selection = query.select? selection := by
    rw [run?, legal]
    rfl
  refine ⟨_, runs.trans selected, ?_⟩
  rw [Query.outcome_of_unsorted unsorted selected, gathers, unpaged]
  unfold Query.remaining
  rw [keepsAll]
  rfl

theorem exists_run?_map (mapper : Mapper α β) (items : List α) :
    ∃ evaluation, run? [] items ⟨.mapped mapper, .all⟩ = some evaluation ∧
      evaluation.outcome = .elements <$> OneShot.map mapper items := by
  let query : Query α β := .ofList items
  have legal : query.refineAll? [] = some query := rfl
  have gathers : query.projected mapper = OneShot.map mapper items :=
    OneShot.gather_eq_mapFrom mapper 0 items
  exact @exists_run?_of_gathered α β _ _ _ _ _ legal rfl rfl ⟨.mapped mapper, .all⟩ rfl _ gathers

theorem exists_run?_filter [BEq α] [Ord α] (check : α → Outcome Bool) (items : List α) :
    ∃ evaluation, run? [.filter check] items ⟨.plain rfl, .all⟩ = some evaluation ∧
      evaluation.outcome = .elements <$> OneShot.filter (fun _ => check) items := by
  let query : Query α := ⟨items, Predicate.acceptAll.and (.of check), none, .filtered⟩
  have legal : (Query.ofList items).refineAll? [.filter check] = some query := rfl
  have gathers : query.projected Mapper.identity = OneShot.filter (fun _ => check) items :=
    OneShot.gather_eq_filterFrom (Predicate.test_acceptAll_and (.of check)) 0 0
      (Nat.le_refl items.length)
  exact @exists_run?_of_gathered α α _ _ _ _ _ legal rfl rfl ⟨.plain rfl, .all⟩ rfl _ gathers

theorem exists_run?_any [BEq α] [Ord α] (check : α → Outcome Bool) (items : List α) :
    ∃ evaluation, run? [.filter check, .limit 1] items ⟨.plain rfl, .first⟩ = some evaluation ∧
      (OneShot.any (fun _ => check) items).SettledBy evaluation.outcome := by
  let query : Query α :=
    ⟨items, Predicate.acceptAll.and (.of check), some 1, .special .unsorted .keepAll⟩
  have legal : (Query.ofList items).refineAll? [.filter check, .limit 1] = some query := rfl
  have asks : OneShot.any (fun _ => check) items =
      (fun found => found.head?.isSome) <$> query.projected Mapper.identity :=
    OneShot.anyFrom_eq_gather (Predicate.test_acceptAll_and (.of check)) 0 0 items
  obtain ⟨evaluation, runs, outcome⟩ :=
    @exists_run?_of_gathered α α _ _ _ _ _ legal rfl rfl ⟨.plain rfl, .first⟩ rfl _ rfl
  refine ⟨evaluation, runs, ?_⟩
  rw [outcome, asks]
  exact Outcome.settledBy_first _

/-! ### Shortcuts and queries -/

/-- Every shortcut comes to what a query on the list comes to, with the same log. Projecting and
filtering select all elements; whether some element is accepted is settled by the search for one,
and nothing behind the first accepted element is tested. The other two questions are that question
answered the other way round, about the test itself and about its opposite. -/
theorem shortcuts_match_queries [BEq α] [Ord α] (items : List α) :
    (∀ mapper : Mapper α β, ∃ evaluation,
      run? [] items ⟨.mapped mapper, .all⟩ = some evaluation ∧
        evaluation.outcome = .elements <$> OneShot.map mapper items) ∧
    (∀ check : α → Outcome Bool,
      (∃ evaluation, run? [.filter check] items ⟨.plain rfl, .all⟩ = some evaluation ∧
        evaluation.outcome = .elements <$> OneShot.filter (fun _ => check) items) ∧
      ∃ evaluation, run? [.filter check, .limit 1] items ⟨.plain rfl, .first⟩ = some evaluation ∧
        (OneShot.any (fun _ => check) items).SettledBy evaluation.outcome) ∧
    ∀ check : Nat → α → Outcome Bool,
      (∀ front element rest, items = front ++ element :: rest →
        (check front.length element).result = .ok true →
          OneShot.any check items = OneShot.any check (front ++ [element])) ∧
      (OneShot.none check items).result = (OneShot.any check items).result.map Bool.not ∧
      (OneShot.none check items).trace = (OneShot.any check items).trace ∧
      OneShot.all check items =
        OneShot.none (fun earlierCalls element => Bool.not <$> check earlierCalls element)
          items := by
  refine ⟨fun mapper => exists_run?_map mapper items,
    fun check => ⟨exists_run?_filter check items, exists_run?_any check items⟩,
    fun check => ⟨?_, Outcome.result_map _ _, Outcome.trace_map _ _,
      OneShot.allFrom_eq_not_anyFrom check 0 items⟩⟩
  rintro front element rest rfl accepted
  refine OneShot.anyFrom_append_cons ?_ rest
  rw [Nat.zero_add]
  exact accepted

/-- The test logs every call and fails on the last element, which is behind the one that it accepts.
Filtering and the opposite question come to the fault; the search does not get there. -/
theorem shortcuts_match_queries_of_failing_test :
    let check : Value → Outcome Bool := fun element =>
      ⟨[⟨"test", [element]⟩],
        match element with
        | .str _ => .ok true
        | .null => .error .divisionByZero
        | _ => .ok false⟩
    let items : List Value := [.int 1, .str "a", .int 2, .null]
    ∃ selection search,
      run? [.filter check] items ⟨.plain rfl, .all⟩ = some selection ∧
      selection.outcome = .elements <$> OneShot.filter (fun _ => check) items ∧
      selection.outcome.result = .error .divisionByZero ∧
      run? [.filter check, .limit 1] items ⟨.plain rfl, .first⟩ = some search ∧
      search.outcome.result = .ok (.first (some (.str "a"))) ∧
      OneShot.any (fun _ => check) items = OneShot.any (fun _ => check) [.int 1, .str "a"] ∧
      (OneShot.any (fun _ => check) items).result = .ok true := by
  intro check items
  obtain ⟨_, queries, questions⟩ := @shortcuts_match_queries Value Value _ _ _ _ items
  obtain ⟨⟨selection, selects, selected⟩, search, searches, settled⟩ := queries check
  obtain ⟨stops, _⟩ := questions fun _ => check
  have found : search.outcome.result = .ok (.first (some (.str "a"))) := by
    obtain rfl := Option.some.inj searches
    rfl
  refine ⟨selection, search, selects, selected, ?_, searches, found, ?_, ?_⟩
  · rw [selected]
    rfl
  · exact stops [.int 1] (.str "a") [.int 2, .null] rfl rfl
  · exact settled.yes_iff.mpr ⟨_, found⟩

end Chain

end StagedQuery
