/-
This file proves which sequences of calls the stages offer: those that a regular
grammar generates.

Each stage is given the expression of what may still follow it, and the first
stage the whole grammar. A call is offered where the expression of the stage can
begin with its word, and the derivative of that expression by the word is what may
follow the next stage. An induction over the calls then compares the two. A
session that is refused a call goes on as if it had not been asked for.
-/

import Mathlib.Computability.RegularExpressions
import StagedQuery.Proofs.Session.Derivations

namespace StagedQuery

variable {α β : Type}

/-! ### Words -/

/-- The names of the calls that build a query. -/
inductive Keyword where
  | filter
  | and
  | or
  | ordered
  | orderBy
  | orderByKey
  | distinct
  | limit
  deriving DecidableEq

/-- A call that builds a query, as a caller writes it. -/
inductive BuilderCall (α : Type) (β : Type := α) : Type 1 where
  | filter (check : α → Outcome Bool)
  | and (check : α → Outcome Bool)
  | or (check : α → Outcome Bool)
  | ordered
  | orderBy (comparator : Comparator β)
  | orderByKey (κ : Type) (order : Ord κ) (key : β → Outcome κ)
  | distinct
  | limit (count : UInt64)

namespace BuilderCall

/-- The name of a call. -/
def keyword : BuilderCall α β → Keyword
  | .filter _ => .filter
  | .and _ => .and
  | .or _ => .or
  | .ordered => .ordered
  | .orderBy _ => .orderBy
  | .orderByKey _ _ _ => .orderByKey
  | .distinct => .distinct
  | .limit _ => .limit

/-- What a call does to a query. -/
def refinement : BuilderCall α β → Refinement α β
  | .filter check => .filter check
  | .and check => .and check
  | .or check => .or check
  | .ordered => .ordered
  | .orderBy comparator => .orderBy comparator
  | .orderByKey _ _ key => .orderByKey key
  | .distinct => .distinct
  | .limit count => .limit count

end BuilderCall

/-! ### The grammar -/

namespace Grammar

open RegularExpression

/-- Any number of checks that are joined to the ones before. -/
def furtherRestrictions : RegularExpression Keyword := star (char .and + char .or)

/-- No check, or a first one and those that are joined to it. -/
def restrictions : RegularExpression Keyword := 1 + char .filter * furtherRestrictions

/-- At most one ordering: by the natural order, by a comparator, or by a key. -/
def ordering : RegularExpression Keyword :=
  1 + (char .ordered + char .orderBy + char .orderByKey)

/-- Any number of calls on duplicates and the limit. -/
def endings : RegularExpression Keyword := star (char .distinct + char .limit)

/-- The words that build queries: restrictions, at most one ordering, and last the calls on
duplicates and the limit. -/
def words : RegularExpression Keyword := restrictions * ordering * endings

/-- The words that may follow a stage. -/
def following : Stage β → RegularExpression Keyword
  | .unfiltered => words
  | .filtered => furtherRestrictions * ordering * endings
  | .ordered | .orderedBy _ | .special _ _ => endings

theorem cons_mem_matches_iff {expression : RegularExpression Keyword} {keyword : Keyword}
    {word : List Keyword} :
    keyword :: word ∈ expression.matches' ↔ word ∈ (expression.deriv keyword).matches' := by
  rw [← rmatch_iff_matches', ← rmatch_iff_matches', rmatch]

/-- Nothing has to follow a stage. -/
theorem nil_mem_following (stage : Stage β) : [] ∈ (following stage).matches' := by
  rw [← rmatch_iff_matches', rmatch]
  cases stage <;> rfl

/-- What may follow a call is what may follow the stage that the call leads to, if it is offered. -/
theorem deriv_following (stage : Stage β) (call : BuilderCall α β) :
    ((following stage).deriv call.keyword).matches' =
      (stage.next? call.refinement).elim 0 fun next => (following next).matches' := by
  cases stage <;> cases call <;>
    simp [following, words, restrictions, furtherRestrictions, ordering, endings,
      RegularExpression.deriv, matchEpsilon, BuilderCall.keyword, BuilderCall.refinement,
      Stage.next?, Refinement.orderByKey]

/-- A chain is legal from a stage on if its words may follow the stage. -/
theorem isSome_refineAll?_iff (query : Query α β) (calls : List (BuilderCall α β)) :
    (query.refineAll? (calls.map BuilderCall.refinement)).isSome ↔
      calls.map BuilderCall.keyword ∈ (following query.stage).matches' := by
  induction calls generalizing query with
  | nil => exact ⟨fun _ => nil_mem_following query.stage, fun _ => rfl⟩
  | cons call rest inductionHypothesis =>
    rw [List.map_cons, List.map_cons, cons_mem_matches_iff, deriv_following, Query.refineAll?,
      List.foldlM_cons, Query.refine?]
    cases offered : query.stage.next? call.refinement with
    | none => exact ⟨nofun, nofun⟩
    | some next => exact inductionHypothesis _

end Grammar

/-! ### Comparators -/

/-- Whether a call fixes what is selected by a comparator. -/
def Keyword.pins : Keyword → Bool
  | .orderBy | .orderByKey => true
  | .filter | .and | .or | .ordered | .distinct | .limit => false

theorem any_pins_iff (word : List Keyword) :
    word.any Keyword.pins ↔ .orderBy ∈ word ∨ .orderByKey ∈ word := by
  rw [List.any_eq_true]
  constructor
  · rintro ⟨keyword, member, pins⟩
    cases keyword with
    | orderBy => exact .inl member
    | orderByKey => exact .inr member
    | filter | and | or | ordered | distinct | limit => nomatch pins
  · rintro (member | member)
    · exact ⟨.orderBy, member, rfl⟩
    · exact ⟨.orderByKey, member, rfl⟩

theorem Stage.isPinned_of_next? {stage next : Stage β} {call : BuilderCall α β}
    (offered : stage.next? call.refinement = some next) :
    next.isPinned = (stage.isPinned || call.keyword.pins) := by
  cases stage <;> cases call <;> cases offered <;>
    simp [isPinned, sorting, Sorting.isPinned, BuilderCall.keyword, Keyword.pins]

/-- Only a call with a comparator pins a query, and no later call undoes it. -/
theorem isPinned_of_refineAll? {query refined : Query α β} {calls : List (BuilderCall α β)}
    (legal : query.refineAll? (calls.map BuilderCall.refinement) = some refined) :
    refined.stage.isPinned =
      (query.stage.isPinned || (calls.map BuilderCall.keyword).any Keyword.pins) := by
  induction calls generalizing query with
  | nil =>
    cases legal
    exact (Bool.or_false _).symm
  | cons call rest inductionHypothesis =>
    rw [Query.refineAll?, List.map_cons, List.foldlM_cons] at legal
    obtain ⟨next, offered, later⟩ := Option.bind_eq_some_iff.mp legal
    obtain ⟨stage, nextStage, rfl⟩ := Option.map_eq_some_iff.mp offered
    rw [inductionHypothesis later, List.map_cons, List.any_cons,
      Stage.isPinned_of_next? nextStage, Bool.or_assoc]

/-! ### Sessions -/

/-- The step that makes a call on the query in a register and keeps the new query there. -/
def BuilderCall.step (register : String) (call : BuilderCall Value) : Step :=
  call.refinement.step register

/-- What a step asks for to get an extent. -/
def Extent.request : Extent → Request
  | .all => .all
  | .page _ => .paged
  | .first => .first

/-- The mapper of a projection, if it has one. -/
def Projection.mapper? : Projection α β → Option (Mapper α β)
  | .plain _ => none
  | .mapped mapper => some mapper

theorem Projection.ofOption_mapper? (projection : Projection α) :
    ofOption projection.mapper? = projection := by
  cases projection <;> rfl

/-- The step that selects from the query in a register. -/
def Selection.step (register : String) (selection : Selection Value) : Step where
  action := .select selection.projection.mapper? selection.extent.request
  page := selection.extent.paging.map fun paging => ⟨paging.page, paging.perPage⟩
  register
  target := register

namespace Session

variable {session : Session} {register : String} {query : Query Value}

theorem run_cons (session : Session) (step : Step) (rest : List Step) :
    session.run (step :: rest) =
      (session.perform step).2 :: (session.perform step).1.run rest := rfl

theorem reading_of_held {step : Step} (held : session.registers step.register = some query)
    (next : Query Value → Session × Answer) : session.reading step next = next query := by
  rw [reading, held]

theorem perform_refine (held : session.registers register = some query)
    (call : BuilderCall Value) :
    session.perform (call.step register) =
      (query.refine? call.refinement).elim (session, .notOffered) fun refined =>
        (session.write register refined, .built refined) := by
  show session.reading (call.step register) _ = _
  rw [reading_of_held held]
  cases query.refine? call.refinement <;> rfl

/-- The page of a selection is a page, so the step that names it is not rejected. -/
theorem perform_select (held : session.registers register = some query)
    (selection : Selection Value) :
    session.perform (selection.step register) =
      (session, (query.select? selection).elim .notOffered .found) := by
  obtain ⟨projection, extent⟩ := selection
  have named : (Selection.step register ⟨projection, extent⟩).paging = .ok extent.paging := by
    cases extent with
    | all | first => rfl
    | page paging =>
      show (Paging.of? paging.page paging.perPage).map some = _
      rw [Paging.of?_self]
      rfl
  have asked : extent.request.extent? extent.paging = some extent := by cases extent <;> rfl
  rw [perform, named]
  show session.reading (Selection.step register ⟨projection, extent⟩) _ = _
  rw [reading_of_held held]
  simp only [asked, projection.ofOption_mapper?]
  cases query.select? ⟨projection, extent⟩ <;> rfl

theorem registers_write (session : Session) (register : String) (query : Query Value) :
    (session.write register query).registers register = some query := if_pos rfl

/-- Calls that build a query, and a call that selects from it, are all offered if the chain is legal
and the query offers the selection at its end. -/
theorem run_offered_iff (held : session.registers register = some query)
    (calls : List (BuilderCall Value)) (selection : Selection Value) :
    (∀ answer ∈ session.run (calls.map (·.step register) ++ [selection.step register]),
        answer ≠ .notOffered) ↔
      ∃ refined, query.refineAll? (calls.map BuilderCall.refinement) = some refined ∧
        refined.stage.offers selection := by
  induction calls generalizing session query with
  | nil =>
    rw [List.map_nil, List.nil_append, run_cons, perform_select held, run,
      List.forall_mem_singleton]
    have offers : (query.select? selection).elim Answer.notOffered .found ≠ .notOffered ↔
        query.stage.offers selection := by
      unfold Query.select?
      split <;> simp_all
    rw [offers]
    constructor
    · intro offered
      exact ⟨query, rfl, offered⟩
    · rintro ⟨refined, same, offered⟩
      rwa [Option.some.inj same]
  | cons call rest inductionHypothesis =>
    rw [List.map_cons, List.map_cons, List.cons_append, run_cons, perform_refine held,
      Query.refineAll?, List.foldlM_cons]
    cases offered : query.refine? call.refinement with
    | none =>
      constructor
      · intro all
        exact absurd rfl (all _ (.head _))
      · rintro ⟨refined, legal, _⟩
        cases legal
    | some refined =>
      have later := inductionHypothesis (registers_write session register refined)
      have built : Answer.built refined ≠ .notOffered := Answer.noConfusion
      refine Iff.trans List.forall_mem_cons ?_
      exact ⟨fun both => later.mp both.2, fun legal => ⟨built, later.mpr legal⟩⟩

/-- A step that is not offered leaves the session as it was. -/
theorem perform_of_notOffered {step : Step} (refused : (session.perform step).2 = .notOffered) :
    (session.perform step).1 = session := by
  refine session.perform_of_observes_or_isRefusal (.inr ?_)
  rw [refused]
  rfl

/-- A session offers a chain of calls and the selection at its end if and only if their words are
words of the grammar, and a comparator among them is met by a projection. A step that is not
offered is answered so and has no part in what follows. -/
theorem offered_iff_mem_words (source : List Value) (register : String)
    (calls : List (BuilderCall Value)) (selection : Selection Value) :
    ((∀ answer ∈ (start source register).run
          (calls.map (·.step register) ++ [selection.step register]), answer ≠ .notOffered) ↔
      calls.map BuilderCall.keyword ∈ Grammar.words.matches' ∧
        (.orderBy ∈ calls.map BuilderCall.keyword ∨ .orderByKey ∈ calls.map BuilderCall.keyword →
          selection.projection.isMapped)) ∧
    ∀ (session : Session) (step : Step), (session.perform step).2 = .notOffered →
      (session.perform step).1 = session ∧
        ∀ rest, session.run (step :: rest) = .notOffered :: session.run rest := by
  constructor
  · have held : (start source register).registers register = some (.ofList source) := if_pos rfl
    have legal := Grammar.isSome_refineAll?_iff (Query.ofList source) calls
    rw [run_offered_iff held, ← any_pins_iff]
    constructor
    · rintro ⟨refined, built, offered⟩
      refine ⟨legal.mp (by rw [built]; rfl), fun pins => ?_⟩
      have pinned := isPinned_of_refineAll? built
      rw [pins, Bool.or_true] at pinned
      rwa [Stage.offers, pinned] at offered
    · rintro ⟨word, mapped⟩
      obtain ⟨refined, built⟩ := Option.isSome_iff_exists.mp (legal.mpr word)
      have pinned := isPinned_of_refineAll? built
      refine ⟨refined, built, ?_⟩
      rw [Stage.offers, pinned]
      cases pins : (calls.map BuilderCall.keyword).any Keyword.pins with
      | false => rfl
      | true =>
        rw [mapped pins]
        exact Bool.or_true _
  · intro session step refused
    have unchanged := perform_of_notOffered refused
    refine ⟨unchanged, fun rest => ?_⟩
    rw [run_cons, refused, unchanged]

/-- A chain with an ordering by a key is offered to a projection, and a conjunction that no filter
precedes is passed over. -/
theorem offered_iff_mem_words_of_key (source : List Value) :
    let check : Value → Outcome Bool := fun _ => pure true
    let calls : List (BuilderCall Value) :=
      [.filter check, .or check, .and check, .orderByKey Value inferInstance pure, .limit 3,
        .distinct, .limit 2]
    let selection : Selection Value := ⟨.mapped .identity, .first⟩
    let conjunction : Step := (BuilderCall.and check).step "query"
    let steps := calls.map (·.step "query") ++ [selection.step "query"]
    (∀ answer ∈ (start source "query").run steps, answer ≠ .notOffered) ∧
      (start source "query").run (conjunction :: steps) =
        .notOffered :: (start source "query").run steps := by
  intro check calls selection conjunction steps
  have word : calls.map BuilderCall.keyword ∈ Grammar.words.matches' := by
    show [Keyword.filter, .or, .and, .orderByKey, .limit, .distinct, .limit] ∈ _
    decide
  have both := offered_iff_mem_words source "query" calls selection
  exact ⟨both.1.mpr ⟨word, fun _ => rfl⟩,
    (both.2 (start source "query") conjunction rfl).2 steps⟩

end Session

end StagedQuery
