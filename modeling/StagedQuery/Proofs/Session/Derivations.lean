/-
This file proves that queries in a session are values: what a query answers depends
on how it was derived, and on nothing else that the session does.

The steps of a session and their answers tell how the query in every register was
derived. A step that is answered with a new query extends the derivation that it
reads by its own call, or takes it over if it copies; no other step has a part in
any derivation. The invariant is that the calls on record build the query that the
register holds. A query can therefore be built again, from the whole list and by
these calls alone, and answers as it does where it stands.
-/

import Mathlib.Logic.Function.Basic
import StagedQuery.Proofs.Construction.Chains
import StagedQuery.Session

namespace StagedQuery

/-! ### Steps -/

/-- Whether an action only looks at a query: it makes none. -/
def Action.observes : Action → Bool
  | .select _ _ | .inspect => true
  | .start | .copy | .refine _ => false

/-- Whether a step was answered with a problem of the step itself. A selection in which a function
of the caller fails was made. -/
def Answer.isRefusal : Answer → Bool
  | .rejected _ | .emptyRegister | .notOffered => true
  | .built _ | .found _ | .inspected _ => false

/-- The step that makes a call on the query in a register and keeps the new query there. -/
def Refinement.step (register : String) (refinement : Refinement Value) : Step where
  action := .refine refinement
  page := none
  register
  target := register

/-- The same step on the query in another register. -/
def Step.on (step : Step) (register : String) : Step := { step with register, target := register }

namespace Session

/-- The session after several steps. -/
def after (session : Session) (steps : List Step) : Session :=
  steps.foldl (fun session step => (session.perform step).1) session

/-- What an action makes of the session's list and of the query that it reads, if there is one. -/
def make? (session : Session) (read : Option (Query Value)) : Action → Option (Query Value)
  | .start => some (.ofList session.source)
  | .copy => read
  | .refine refinement => read.bind (·.refine? refinement)
  | .select _ _ | .inspect => none

/-- What a step comes to: it makes a query, writes it and is answered with it, or it leaves the
session as it was and is answered with no new query. -/
def ComesTo (session : Session) (step : Step) (made : Option (Query Value))
    (result : Session × Answer) : Prop :=
  match made with
  | some query => result = session.build step query
  | none => result.1 = session ∧ ∀ query, result.2 ≠ .built query

variable (session : Session)

theorem after_cons (step : Step) (rest : List Step) :
    session.after (step :: rest) = (session.perform step).1.after rest := rfl

theorem after_append (front back : List Step) :
    session.after (front ++ back) = (session.after front).after back := List.foldl_append

theorem run_append (front back : List Step) :
    session.run (front ++ back) = session.run front ++ (session.after front).run back := by
  induction front generalizing session with
  | nil => rfl
  | cons step rest inductionHypothesis =>
    show _ :: (session.perform step).1.run (rest ++ back) = _
    rw [inductionHypothesis]
    rfl

/-- The answer to a step in the middle of a run. -/
theorem getElem?_run (front : List Step) (step : Step) (rest : List Step) :
    (session.run (front ++ step :: rest))[front.length]? =
      some ((session.after front).perform step).2 := by
  rw [run_append, List.getElem?_append_right (Nat.le_of_eq (session.length_run front)), length_run,
    Nat.sub_self]
  rfl

/-! ### What a step does -/

theorem comesTo_reading (step : Step) (make : Query Value → Option (Query Value))
    {next : Query Value → Session × Answer}
    (comes : ∀ query, session.ComesTo step (make query) (next query)) :
    session.ComesTo step ((session.registers step.register).bind make)
      (session.reading step next) := by
  unfold reading
  cases session.registers step.register with
  | none => exact ⟨rfl, nofun⟩
  | some query => exact comes query

theorem comesTo_none_reading (step : Step) {next : Query Value → Session × Answer}
    (comes : ∀ query, session.ComesTo step none (next query)) :
    session.ComesTo step none (session.reading step next) := by
  have looked := session.comesTo_reading step (fun _ => none) comes
  rwa [Option.bind_fun_none] at looked

/-- Once its page is known, a step makes what its action makes. -/
theorem comesTo_act (step : Step) (paging : Option Paging) :
    session.ComesTo step (session.make? (session.registers step.register) step.action)
      (session.act step paging) := by
  unfold act
  cases step.action with
  | start => rfl
  | copy =>
    have copied := session.comesTo_reading step some fun _ => rfl
    rwa [Option.bind_fun_some] at copied
  | refine refinement =>
    refine session.comesTo_reading step (·.refine? refinement) fun query => ?_
    cases query.refine? refinement with
    | none => exact ⟨rfl, nofun⟩
    | some refined => rfl
  | select mapper request =>
    refine session.comesTo_none_reading step fun query => ?_
    cases request.extent? paging with
    | none => exact ⟨rfl, nofun⟩
    | some extent =>
      dsimp only
      cases query.select? ⟨mapper, extent⟩ <;> exact ⟨rfl, nofun⟩
  | inspect => exact session.comesTo_none_reading step fun _ => ⟨rfl, nofun⟩

/-- A step whose action makes a query is answered with it, if its page is a page. -/
theorem perform_of_make?_eq_some {step : Step} {paging : Option Paging} {query : Query Value}
    (named : step.paging = .ok paging)
    (made : session.make? (session.registers step.register) step.action = some query) :
    session.perform step = session.build step query := by
  have comes := session.comesTo_act step paging
  rw [made] at comes
  rw [perform, named]
  exact comes

/-- A step makes what its action makes, or nothing if it is refused. -/
theorem perform_cases (step : Step) :
    (∃ query, session.make? (session.registers step.register) step.action = some query ∧
      session.perform step = (session.write step.target query, .built query)) ∨
    ((session.perform step).1 = session ∧ ∀ query, (session.perform step).2 ≠ .built query) := by
  cases named : step.paging with
  | error error =>
    rw [perform, named]
    exact .inr ⟨rfl, nofun⟩
  | ok paging =>
    cases made : session.make? (session.registers step.register) step.action with
    | none =>
      have comes := session.comesTo_act step paging
      rw [made] at comes
      rw [perform, named]
      exact .inr comes
    | some query => exact .inl ⟨query, rfl, session.perform_of_make?_eq_some named made⟩

theorem source_perform (step : Step) : (session.perform step).1.source = session.source := by
  rcases session.perform_cases step with ⟨query, _, performed⟩ | ⟨unchanged, _⟩
  · rw [performed]
    rfl
  · rw [unchanged]

theorem source_after (steps : List Step) : (session.after steps).source = session.source := by
  induction steps generalizing session with
  | nil => rfl
  | cons step rest inductionHypothesis =>
    rw [after_cons, inductionHypothesis, source_perform]

/-- Whoever looks at a query makes none. -/
theorem make?_of_observes {action : Action} (observes : action.observes)
    (read : Option (Query Value)) : session.make? read action = none := by
  cases action with
  | select _ _ | inspect => rfl
  | start | copy | refine _ => nomatch observes

/-- A step that looks at a query, or is refused, leaves the session as it was. -/
theorem perform_of_observes_or_isRefusal {step : Step}
    (idle : step.action.observes ∨ (session.perform step).2.isRefusal) :
    (session.perform step).1 = session := by
  rcases session.perform_cases step with ⟨query, made, performed⟩ | ⟨unchanged, _⟩
  · rcases idle with observes | refused
    · rw [session.make?_of_observes observes] at made
      nomatch made
    · rw [performed] at refused
      nomatch refused
  · exact unchanged

/-- What is answered on a register depends on the query in it. -/
theorem reading_congr {session other : Session} {step otherStep : Step}
    (same : session.registers step.register = other.registers otherStep.register)
    {next otherNext : Query Value → Session × Answer}
    (alike : ∀ query, (next query).2 = (otherNext query).2) :
    (session.reading step next).2 = (other.reading otherStep otherNext).2 := by
  unfold reading
  rw [same]
  cases other.registers otherStep.register with
  | none => rfl
  | some query => exact alike query

/-- A step that looks at a query is answered as the query and the page that it names decide. -/
theorem answer_of_observes {session other : Session} {step otherStep : Step}
    (observes : step.action.observes) (action : step.action = otherStep.action)
    (page : step.page = otherStep.page)
    (same : session.registers step.register = other.registers otherStep.register) :
    (session.perform step).2 = (other.perform otherStep).2 := by
  have paging : step.paging = otherStep.paging := by rw [Step.paging, page, Step.paging]
  unfold perform
  rw [paging]
  cases otherStep.paging with
  | error error => rfl
  | ok paging =>
    show (session.act step paging).2 = (other.act otherStep paging).2
    unfold act
    rw [← action]
    cases looks : step.action with
    | start | copy | refine _ =>
      rw [looks] at observes
      nomatch observes
    | select mapper request =>
      refine reading_congr same fun query => ?_
      cases request.extent? paging with
      | none => rfl
      | some extent =>
        dsimp only
        cases query.select? ⟨mapper, extent⟩ <;> rfl
    | inspect => exact reading_congr same fun _ => rfl

end Session

/-! ### Derivations -/

/-- The calls by which the query in a register was derived, for every register that holds one. -/
abbrev Derivations := String → Option (Chain Value)

/-- The derivation of what an action makes, out of the derivation that it reads. -/
def Action.derive (read : Option (Chain Value)) : Action → Option (Chain Value)
  | .start => some []
  | .copy => read
  | .refine refinement => read.map (· ++ [refinement])
  | .select _ _ | .inspect => none

namespace Derivations

/-- One register holds the query on the whole list. -/
def start (register : String) : Derivations := fun name =>
  if name = register then some [] else none

/-- The derivations after a step, by its answer: only a step that is answered with a new query
changes one. -/
def note (derivations : Derivations) (step : Step) : Answer → Derivations
  | .built _ =>
    Function.update derivations step.target (step.action.derive (derivations step.register))
  | .found _ | .inspected _ | .rejected _ | .emptyRegister | .notOffered => derivations

/-- The derivations after several steps, by their answers. -/
def after (derivations : Derivations) : List Step → List Answer → Derivations
  | step :: steps, answer :: answers => (derivations.note step answer).after steps answers
  | _, _ => derivations

/-- The calls on record build what the registers hold. -/
def Account (derivations : Derivations) (session : Session) : Prop :=
  ∀ name, (derivations name).map (Query.ofList session.source).refineAll? =
    (session.registers name).map some

theorem note_of_not_built (derivations : Derivations) (step : Step) {answer : Answer}
    (quiet : ∀ query, answer ≠ .built query) : derivations.note step answer = derivations := by
  cases answer with
  | built query => exact absurd rfl (quiet query)
  | found _ | inspected _ | rejected _ | emptyRegister | notOffered => rfl

theorem account_start (source : List Value) (register : String) :
    (start register).Account (Session.start source register) := by
  intro name
  show Option.map _ (if name = register then some [] else none) =
    Option.map _ (if name = register then some (Query.ofList source) else none)
  split <;> rfl

variable {derivations : Derivations} {session : Session}

/-- The derivation of what an action makes builds it. -/
theorem Account.derive (account : derivations.Account session) {step : Step} {query : Query Value}
    (made : session.make? (session.registers step.register) step.action = some query) :
    (step.action.derive (derivations step.register)).map
      (Query.ofList session.source).refineAll? = some (some query) := by
  have read := account step.register
  cases action : step.action with
  | start =>
    rw [action] at made
    cases made
    rfl
  | copy =>
    rw [action] at made
    change session.registers step.register = some query at made
    rw [made] at read
    exact read
  | refine refinement =>
    rw [action] at made
    obtain ⟨held, registered, offered⟩ := Option.bind_eq_some_iff.mp made
    rw [registered] at read
    obtain ⟨chain, recorded, built⟩ := Option.map_eq_some_iff.mp read
    rw [recorded]
    show some ((Query.ofList session.source).refineAll? (chain ++ [refinement])) = _
    unfold Query.refineAll? at built ⊢
    rw [List.foldlM_append, built]
    simpa using offered
  | select _ _ | inspect =>
    rw [action] at made
    nomatch made

/-- Every step leaves an account of what the registers hold. -/
theorem Account.perform (account : derivations.Account session) (step : Step) :
    (derivations.note step (session.perform step).2).Account (session.perform step).1 := by
  rcases session.perform_cases step with ⟨query, made, performed⟩ | ⟨unchanged, quiet⟩
  · rw [performed]
    intro name
    show Option.map (Query.ofList session.source).refineAll?
        (Function.update derivations step.target _ name) =
      Option.map some (if name = step.target then some query else session.registers name)
    by_cases written : name = step.target
    · rw [written, Function.update_self, if_pos rfl]
      exact account.derive made
    · rw [Function.update_of_ne written, if_neg written]
      exact account name
  · rw [derivations.note_of_not_built step quiet, unchanged]
    exact account

/-- So does a whole run. -/
theorem Account.after (account : derivations.Account session) (steps : List Step) :
    (derivations.after steps (session.run steps)).Account (session.after steps) := by
  induction steps generalizing derivations session with
  | nil => exact account
  | cons step rest inductionHypothesis => exact inductionHypothesis (account.perform step)

/-- A register that holds a query has a derivation, and its calls build the query. -/
theorem Account.exists_chain (account : derivations.Account session) {name : String}
    {query : Query Value} (held : session.registers name = some query) :
    ∃ chain, derivations name = some chain ∧
      (Query.ofList session.source).refineAll? chain = some query := by
  have recorded := account name
  rw [held] at recorded
  exact Option.map_eq_some_iff.mp recorded

/-- Every query that a session has made is built by the calls on record. -/
theorem exists_legal_of_held {source : List Value} {register name : String} {steps : List Step}
    {query : Query Value}
    (held : ((Session.start source register).after steps).registers name = some query) :
    ∃ chain, (start register).after steps ((Session.start source register).run steps) name =
        some chain ∧ (Query.ofList source).refineAll? chain = some query := by
  have account := (account_start source register).after steps
  have same : ((Session.start source register).after steps).source = source := by
    rw [Session.source_after]
    rfl
  obtain ⟨chain, recorded, legal⟩ := account.exists_chain held
  rw [same] at legal
  exact ⟨chain, recorded, legal⟩

end Derivations

end StagedQuery
