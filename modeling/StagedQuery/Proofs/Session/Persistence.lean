/-
This file proves that a query answers in a session as it does when it is built anew.

A query's derivation can be replayed in any register of any session on the same
list, and the query that this builds is asked what the first one was asked. All
else that the session did is left out of the replay: other registers, selections,
steps that were refused, and steps that overwrote what came before. So none of it
has a part in the answer.
-/

import StagedQuery.Proofs.Session.Derivations

namespace StagedQuery

/-! ### Replays -/

/-- The steps that build a query in a register: from the whole list, by the calls of a chain. -/
def Chain.replay (register : String) (chain : Chain Value) : List Step :=
  ⟨.start, none, register, register⟩ :: chain.map (·.step register)

/-- Whether an answer is a new query. -/
def Answer.isBuilt : Answer → Bool
  | .built _ => true
  | .found _ | .inspected _ | .rejected _ | .emptyRegister | .notOffered => false

namespace Session

variable {session : Session} {register : String}

/-- Calls that are legal one after the other are all answered with a query, the last one with the
one that they build. -/
theorem after_refinements {query refined : Query Value} {chain : Chain Value}
    (held : session.registers register = some query)
    (legal : query.refineAll? chain = some refined) :
    (session.after (chain.map (·.step register))).registers register = some refined ∧
      (session.run (chain.map (·.step register))).all Answer.isBuilt := by
  induction chain generalizing session query with
  | nil => exact ⟨held.trans legal, rfl⟩
  | cons refinement rest inductionHypothesis =>
    unfold Query.refineAll? at legal
    rw [List.foldlM_cons] at legal
    obtain ⟨next, offered, later⟩ := Option.bind_eq_some_iff.mp legal
    have made : session.make? (session.registers register) (.refine refinement) = some next := by
      rw [held]
      exact offered
    have performed : session.perform (refinement.step register) =
        (session.write register next, .built next) :=
      session.perform_of_make?_eq_some rfl made
    have written : (session.write register next).registers register = some next := if_pos rfl
    rw [List.map_cons, after_cons, run, performed]
    exact inductionHypothesis written later

/-- A replay builds the query of its chain and is refused nowhere. -/
theorem after_replay (session : Session) {chain : Chain Value} {query : Query Value}
    (legal : (Query.ofList session.source).refineAll? chain = some query) :
    (session.after (chain.replay register)).registers register = some query ∧
      (session.run (chain.replay register)).all Answer.isBuilt := by
  have started : (session.write register (.ofList session.source)).registers register =
      some (.ofList session.source) := if_pos rfl
  exact after_refinements started legal

/-! ### Steps without effect -/

/-- Where a step leaves the session as it was, the other steps are answered as without it. -/
theorem eraseIdx_run {front : List Step} {step : Step} (rest : List Step)
    (unchanged : ((session.after front).perform step).1 = session.after front) :
    (session.run (front ++ step :: rest)).eraseIdx front.length = session.run (front ++ rest) := by
  have length := session.length_run front
  rw [run_append, run_append, List.eraseIdx_append_of_length_le (Nat.le_of_eq length), length,
    Nat.sub_self, run, List.eraseIdx_cons_zero, unchanged]

/-- What is in a register stays there until a step writes to it. -/
theorem registers_after {steps : List Step} {name : String}
    (untouched : ∀ step ∈ steps, step.action.observes ∨ step.target ≠ name) :
    (session.after steps).registers name = session.registers name := by
  induction steps generalizing session with
  | nil => rfl
  | cons step rest inductionHypothesis =>
    obtain ⟨first, later⟩ := List.forall_mem_cons.mp untouched
    rw [after_cons, inductionHypothesis later]
    rcases session.perform_cases step with ⟨query, made, performed⟩ | ⟨unchanged, _⟩
    · rw [performed]
      refine if_neg fun written => ?_
      rcases first with observes | elsewhere
      · rw [session.make?_of_observes observes] at made
        nomatch made
      · exact elsewhere written.symm
    · rw [unchanged]

/-! ### Persistence -/

/-- A step that looks at a query is answered as behind a replay of the query's derivation. -/
theorem run_replay {step : Step} (observes : step.action.observes) {chain : Chain Value}
    {query : Query Value} (held : session.registers step.register = some query) {other : Session}
    (legal : (Query.ofList other.source).refineAll? chain = some query) (register : String) :
    (other.run (chain.replay register)).all Answer.isBuilt ∧
      (other.run (chain.replay register ++ [step.on register])).getLast? =
        some (session.perform step).2 := by
  obtain ⟨rebuilt, built⟩ := after_replay other legal
  refine ⟨built, ?_⟩
  have answered : (session.perform step).2 =
      ((other.after (chain.replay register)).perform (step.on register)).2 :=
    answer_of_observes observes rfl rfl (held.trans rebuilt.symm)
  rw [answered, run_append]
  exact List.getLast?_concat

/-- A step that looks at a query is answered alike before and after steps that build no other query
in its register. -/
theorem run_repeated {step : Step} (observes : step.action.observes) (front : List Step)
    {between : List Step}
    (untouched : ∀ other ∈ between, other.action.observes ∨ other.target ≠ step.register)
    (rest : List Step) :
    (session.run (front ++ step :: between ++ step :: rest))[front.length]? =
      (session.run (front ++ step :: between ++ step :: rest))[front.length + 1 +
        between.length]? := by
  have length : (front ++ step :: between).length = front.length + 1 + between.length := by
    rw [List.length_append, List.length_cons, Nat.add_right_comm, Nat.add_assoc]
  have unchanged := perform_of_observes_or_isRefusal (session.after front) (.inl observes)
  have later : session.after (front ++ step :: between) = (session.after front).after between := by
    rw [after_append, after_cons, unchanged]
  have kept : (session.after front).registers step.register =
      ((session.after front).after between).registers step.register :=
    (registers_after untouched).symm
  rw [← length, getElem?_run, later, List.append_assoc, List.cons_append, getElem?_run]
  exact congrArg some (answer_of_observes observes rfl rfl kept)

/-- Queries are values. A step that looks at a query is answered as if nothing but the query's
derivation had come before. Steps that look at queries or are refused can be left out or put in
anywhere. A query is the same as long as no other one is built in its register, whatever is built
from copies of it, and as long it answers the same. -/
theorem answers_persist (source : List Value) (register : String) :
    let session := start source register
    let derivations (steps : List Step) :=
      (Derivations.start register).after steps (session.run steps)
    (∀ front step rest query, step.action.observes →
      (session.after front).registers step.register = some query →
        ∃ chain, derivations front step.register = some chain ∧
          ∀ (other : Session) (fresh : String), other.source = source →
            (other.run (chain.replay fresh)).all Answer.isBuilt ∧
              (session.run (front ++ step :: rest))[front.length]? =
                (other.run (chain.replay fresh ++ [step.on fresh])).getLast?) ∧
    (∀ front step rest,
      step.action.observes ∨ ((session.after front).perform step).2.isRefusal →
        (session.run (front ++ step :: rest)).eraseIdx front.length =
          session.run (front ++ rest)) ∧
    ∀ front step between rest, step.action.observes →
      (∀ other ∈ between, other.action.observes ∨ other.target ≠ step.register) →
        (session.after (front ++ between)).registers step.register =
            (session.after front).registers step.register ∧
          (session.run (front ++ step :: between ++ step :: rest))[front.length]? =
            (session.run (front ++ step :: between ++ step :: rest))[front.length + 1 +
              between.length]? := by
  intro session derivations
  refine ⟨?_, ?_, ?_⟩
  · intro front step rest query observes held
    obtain ⟨chain, recorded, legal⟩ := Derivations.exists_legal_of_held held
    refine ⟨chain, recorded, fun other fresh same => ?_⟩
    rw [← same] at legal
    obtain ⟨built, answered⟩ := run_replay observes held legal fresh
    exact ⟨built, by rw [getElem?_run, answered]⟩
  · intro front step rest idle
    exact eraseIdx_run rest (perform_of_observes_or_isRefusal _ idle)
  · intro front step between rest observes untouched
    rw [after_append]
    exact ⟨registers_after untouched, run_repeated observes front untouched rest⟩

/-- A selection whose projection fails is made on a query, a copy of which is narrowed afterwards,
and made again. Between the two, a call that is not offered is refused. -/
theorem answers_persist_of_copied :
    let failing : Mapper Value := fun earlierCalls element =>
      ⟨[⟨"project", [element]⟩], if earlierCalls = 1 then .error .overflow else .ok element⟩
    let limit : Step := (Refinement.limit 2).step "query"
    let copy : Step := ⟨.copy, none, "query", "copy"⟩
    let narrow : Step := (Refinement.limit 1).step "copy"
    let refused : Step := Refinement.ordered.step "query"
    let selection : Step := ⟨.select (some failing) .all, none, "query", "query"⟩
    let session := start [.int 2, .int 1, .int 3] "query"
    let steps := [limit, selection, copy, narrow, selection, refused, selection]
    (session.run steps)[1]? =
        ((start [.int 2, .int 1, .int 3] "other").run
          (Chain.replay "fresh" [.limit 2] ++ [selection.on "fresh"])).getLast? ∧
      (session.run steps)[1]? = (session.run steps)[4]? ∧
      (session.run steps).eraseIdx 5 =
        session.run [limit, selection, copy, narrow, selection, selection] := by
  intro failing limit copy narrow refused selection session steps
  obtain ⟨replayed, undisturbed, repeated⟩ := answers_persist [.int 2, .int 1, .int 3] "query"
  refine ⟨?_, ?_, ?_⟩
  · obtain ⟨chain, recorded, answered⟩ :=
      replayed [limit] selection [copy, narrow, selection, refused, selection] _ rfl rfl
    obtain rfl : [.limit 2] = chain := Option.some.inj recorded
    exact (answered (start [.int 2, .int 1, .int 3] "other") "fresh" rfl).2
  · have untouched : ∀ other ∈ [copy, narrow],
        other.action.observes ∨ other.target ≠ selection.register := by
      simp [copy, narrow, selection, Refinement.step]
    exact (repeated [limit] selection [copy, narrow] [refused, selection] rfl untouched).2
  · exact undisturbed [limit, selection, copy, narrow, selection] refused [selection] (.inr rfl)

end Session

end StagedQuery
