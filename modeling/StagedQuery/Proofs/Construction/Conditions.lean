/-
This file proves that a chain of checks means what it says from left to right.

The predicate of such a chain is nested once for every check, the last check being
outermost. An element is nevertheless tested in the order in which the checks were
written: the first one is called, and each later one if the value so far leaves it open
what the two come to together. So the nested predicate is a loop over the checks that
carries one value along, and the checks that are called can be listed. What the loop
comes to needs no order any more. An element is accepted if some check that begins
accepts it, the first or one behind `or`, and no check behind `and` takes that back
later on.
-/

import Mathlib.Data.List.Basic
import StagedQuery.Proofs.Construction.Chains

namespace StagedQuery

variable {α β : Type}

/-! ### Clauses -/

/-- How a check is joined to those before it. -/
inductive Connective where
  | and
  | or
  deriving DecidableEq

namespace Connective

/-- Whether a check is called, once those before it have come to a value. -/
def opens : Connective → Bool → Bool
  | .and, before => before
  | .or, before => !before

/-- The value with a check, from the value before it and that of the check. -/
def combine : Connective → Bool → Bool → Bool
  | .and, before, accepted => before && accepted
  | .or, before, accepted => before || accepted

theorem combine_of_opens {connective : Connective} {before : Bool}
    (opens : connective.opens before) (accepted : Bool) :
    connective.combine before accepted = accepted := by
  cases connective <;> cases before <;> first | rfl | nomatch opens

/-- A check that is not called could not change the value. -/
theorem combine_of_not_opens {connective : Connective} {before : Bool}
    (closed : ¬connective.opens before) (accepted : Bool) :
    connective.combine before accepted = before := by
  cases connective <;> cases before <;> first | rfl | exact absurd rfl closed

end Connective

/-- A check and how it is joined to those before it. -/
structure Clause (α : Type) where
  connective : Connective
  check : α → Outcome Bool

namespace Clause

/-- The call that adds a clause to a query. -/
def refinement : Clause α → Refinement α β
  | ⟨.and, check⟩ => .and check
  | ⟨.or, check⟩ => .or check

/-- The predicate with a clause added to it. -/
def joinTo (predicate : Predicate α) : Clause α → Predicate α
  | ⟨.and, check⟩ => predicate.and (.of check)
  | ⟨.or, check⟩ => predicate.or (.of check)

/-- Whether the check accepts an element. A check that fails does not. -/
def accepts (clause : Clause α) (element : α) : Bool := (Predicate.of clause.check).accepts element

theorem accepts_of_ok {clause : Clause α} {element : α} {accepted : Bool}
    (ended : (clause.check element).result = .ok accepted) : clause.accepts element = accepted :=
  Predicate.accepts_of_ok ended

end Clause

/-! ### Values -/

namespace Clause

/-- The value that a list of clauses makes of an earlier one. -/
def value (element : α) (before : Bool) (clauses : List (Clause α)) : Bool :=
  clauses.foldl (fun before clause => clause.connective.combine before (clause.accepts element))
    before

/-- Whether all the checks behind `and` accept an element. -/
def Keep (element : α) (clauses : List (Clause α)) : Prop :=
  ∀ clause ∈ clauses, clause.connective = .and → clause.accepts element

/-- Whether a check behind `or` accepts an element, and all those behind `and` that follow it do. -/
def Admit (element : α) (clauses : List (Clause α)) : Prop :=
  ∃ front clause later, clauses = front ++ clause :: later ∧ clause.connective = .or ∧
    clause.accepts element ∧ Keep element later

theorem keep_cons {element : α} {clause : Clause α} {later : List (Clause α)} :
    Keep element (clause :: later) ↔
      (clause.connective = .and → clause.accepts element) ∧ Keep element later :=
  List.forall_mem_cons

theorem admit_cons {element : α} {clause : Clause α} {later : List (Clause α)} :
    Admit element (clause :: later) ↔
      clause.connective = .or ∧ clause.accepts element ∧ Keep element later ∨
        Admit element later := by
  constructor
  · rintro ⟨front, admitting, rest, split, isOr, accepts, keep⟩
    obtain ⟨rfl, same⟩ | ⟨others, rfl, same⟩ := List.cons_eq_append_iff.mp split
    · obtain ⟨rfl, rfl⟩ := List.cons.inj same
      exact .inl ⟨isOr, accepts, keep⟩
    · exact .inr ⟨others, admitting, rest, same, isOr, accepts, keep⟩
  · rintro (⟨isOr, accepts, keep⟩ | ⟨front, admitting, rest, rfl, admits⟩)
    · exact ⟨[], clause, later, rfl, isOr, accepts, keep⟩
    · exact ⟨clause :: front, admitting, rest, rfl, admits⟩

/-- The value is true if it was so before and is kept, or if it becomes so and is kept then. -/
theorem value_iff {element : α} {before : Bool} {clauses : List (Clause α)} :
    value element before clauses ↔
      before ∧ Keep element clauses ∨ Admit element clauses := by
  induction clauses generalizing before with
  | nil => simp [value, Keep, Admit]
  | cons clause later inductionHypothesis =>
    show value element (clause.connective.combine before (clause.accepts element)) later ↔ _
    rw [inductionHypothesis, keep_cons, admit_cons]
    cases connective : clause.connective with
    | and => simp [Connective.combine, and_assoc]
    | or => simp [Connective.combine, or_and_right, or_assoc]

end Clause

/-! ### The loop over the clauses -/

namespace Clause

/-- Calls those checks in turn that are left open, starting from the value before them. -/
def run (element : α) (before : Bool) : List (Clause α) → Outcome Bool
  | [] => pure before
  | clause :: later =>
    if clause.connective.opens before then do run element (← clause.check element) later
    else run element before later

theorem run_cons_of_opens {element : α} {before : Bool} {clause : Clause α}
    (opens : clause.connective.opens before) (later : List (Clause α)) :
    run element before (clause :: later) =
      clause.check element >>= fun accepted => run element accepted later := by
  rw [run, if_pos opens]

theorem run_cons_of_not_opens {element : α} {before : Bool} {clause : Clause α}
    (closed : ¬clause.connective.opens before) (later : List (Clause α)) :
    run element before (clause :: later) = run element before later := by
  rw [run, if_neg closed]

theorem run_cons_of_ok {element : α} {before accepted : Bool} {clause : Clause α}
    (opens : clause.connective.opens before)
    (checked : (clause.check element).result = .ok accepted) (later : List (Clause α)) :
    run element before (clause :: later) =
      (run element accepted later).behind (clause.check element).trace := by
  rw [run_cons_of_opens opens, Outcome.bind_of_ok checked]

theorem run_cons_of_error {element : α} {before : Bool} {fault : Fault} {clause : Clause α}
    (opens : clause.connective.opens before)
    (failed : (clause.check element).result = .error fault) (later : List (Clause α)) :
    run element before (clause :: later) = ⟨(clause.check element).trace, .error fault⟩ := by
  rw [run_cons_of_opens opens, Outcome.bind_of_error failed]

theorem test_joinTo (predicate : Predicate α) (clause : Clause α) (element : α) :
    (clause.joinTo predicate).test element =
      predicate.test element >>= fun before => run element before [clause] := by
  obtain ⟨connective, check⟩ := clause
  cases connective with
  | and | or =>
    refine bind_congr fun before => ?_
    cases before <;> simp [run, Connective.opens]

theorem run_append (element : α) (before : Bool) (front later : List (Clause α)) :
    run element before (front ++ later) =
      run element before front >>= fun between => run element between later := by
  induction front generalizing before with
  | nil => exact (pure_bind before fun between => run element between later).symm
  | cons clause front inductionHypothesis =>
    rw [List.cons_append]
    by_cases opens : clause.connective.opens before
    · rw [run_cons_of_opens opens, run_cons_of_opens opens, bind_assoc]
      exact bind_congr fun accepted => inductionHypothesis accepted
    · rw [run_cons_of_not_opens opens, run_cons_of_not_opens opens, inductionHypothesis]

/-- A nested predicate tests from the inside to the outside, which is from left to right. -/
theorem test_foldl_joinTo (predicate : Predicate α) (clauses : List (Clause α)) (element : α) :
    (clauses.foldl joinTo predicate).test element =
      predicate.test element >>= fun before => run element before clauses := by
  induction clauses generalizing predicate with
  | nil => exact (bind_pure _).symm
  | cons clause later inductionHypothesis =>
    rw [List.foldl_cons, inductionHypothesis, test_joinTo, bind_assoc]
    exact bind_congr fun before => (run_append element before [clause] later).symm

/-- A loop that does not fail comes to the value of the clauses. -/
theorem value_of_run_ok {element : α} {before accepted : Bool} {clauses : List (Clause α)}
    (ended : (run element before clauses).result = .ok accepted) :
    value element before clauses = accepted := by
  induction clauses generalizing before with
  | nil => exact Except.ok.inj ended
  | cons clause later inductionHypothesis =>
    show value element (clause.connective.combine before (clause.accepts element)) later = accepted
    by_cases opens : clause.connective.opens before
    · rw [run_cons_of_opens opens] at ended
      obtain ⟨between, checked, ended⟩ := Outcome.exists_ok_of_bind_ok ended
      rw [Connective.combine_of_opens opens, accepts_of_ok checked]
      exact inductionHypothesis ended
    · rw [run_cons_of_not_opens opens] at ended
      rw [Connective.combine_of_not_opens opens]
      exact inductionHypothesis ended

end Clause

/-! ### The checks that are called -/

/-- A call of a check: the check and its place among the others. -/
abbrev CheckCall (α : Type) := (α → Outcome Bool) × Nat

/-- Whether a call succeeds on an element, with whichever value. -/
def CheckCall.Succeeds (element : α) (call : CheckCall α) : Prop :=
  ∃ accepted, (call.1 element).result = .ok accepted

namespace Clause

/-- The calls that the loop makes on clauses with their places, up to the first that fails. -/
def called (element : α) (before : Bool) : List (Clause α × Nat) → List (CheckCall α)
  | [] => []
  | (clause, place) :: later =>
    if clause.connective.opens before then
      match (clause.check element).result with
      | .ok accepted => (clause.check, place) :: called element accepted later
      | .error _ => [(clause.check, place)]
    else called element before later

/-- A check that is left open is called, whatever comes of it. -/
theorem mem_called_of_opens {element : α} {before : Bool} {clause : Clause α}
    (opens : clause.connective.opens before) (place : Nat) (later : List (Clause α × Nat)) :
    (clause.check, place) ∈ called element before ((clause, place) :: later) := by
  rw [called, if_pos opens]
  cases (clause.check element).result with
  | ok accepted | error fault => exact List.mem_cons_self

/-- The calls are made in the order of the clauses, and none is made twice. -/
theorem called_sublist (element : α) (before : Bool) (places : List (Clause α × Nat)) :
    (called element before places).Sublist (places.map (Prod.map check id)) := by
  fun_induction called element before places with
  | case1 => exact List.Sublist.slnil
  | case2 before clause place later opens accepted ended inductionHypothesis =>
    exact inductionHypothesis.cons_cons _
  | case3 before clause place later opens fault ended => exact (List.nil_sublist _).cons_cons _
  | case4 before clause place later closed inductionHypothesis => exact inductionHypothesis.cons _

/-- The log of the loop is that of its calls. -/
theorem trace_run (element : α) (before : Bool) (places : List (Clause α × Nat)) :
    (run element before (places.map Prod.fst)).trace =
      (called element before places).flatMap fun call => (call.1 element).trace := by
  fun_induction called element before places with
  | case1 => rfl
  | case2 before clause place later opens accepted ended inductionHypothesis =>
    rw [List.map_cons, run_cons_of_ok opens ended, List.flatMap_cons, Outcome.trace_behind,
      inductionHypothesis]
  | case3 before clause place later opens fault ended =>
    rw [List.map_cons, run_cons_of_error opens ended, List.flatMap_singleton]
  | case4 before clause place later closed inductionHypothesis =>
    rw [List.map_cons, run_cons_of_not_opens closed, inductionHypothesis]

/-- A call that fails ends the loop with its fault. -/
theorem result_run_of_fault {element : α} {before : Bool} {places : List (Clause α × Nat)}
    {call : CheckCall α} (made : call ∈ called element before places) {fault : Fault}
    (fails : (call.1 element).result = .error fault) :
    (run element before (places.map Prod.fst)).result = .error fault := by
  fun_induction called element before places with
  | case1 => nomatch made
  | case2 before clause place later opens accepted ended inductionHypothesis =>
    rw [List.map_cons, run_cons_of_ok opens ended, Outcome.result_behind]
    refine inductionHypothesis ((List.mem_cons.mp made).resolve_left fun isFirst => ?_)
    rw [isFirst, ended] at fails
    nomatch fails
  | case3 before clause place later opens other ended =>
    rw [List.mem_singleton.mp made] at fails
    rw [List.map_cons, run_cons_of_error opens ended]
    exact ended.symm.trans fails
  | case4 before clause place later closed inductionHypothesis =>
    rw [List.map_cons, run_cons_of_not_opens closed]
    exact inductionHypothesis made

/-- Without a call that fails, the loop succeeds. -/
theorem exists_run_ok {element : α} {before : Bool} {places : List (Clause α × Nat)}
    (succeed : ∀ call ∈ called element before places, call.Succeeds element) :
    ∃ accepted, (run element before (places.map Prod.fst)).result = .ok accepted := by
  fun_induction called element before places with
  | case1 before => exact ⟨before, rfl⟩
  | case2 before clause place later opens accepted ended inductionHypothesis =>
    rw [List.map_cons, run_cons_of_ok opens ended, Outcome.result_behind]
    exact inductionHypothesis (List.forall_mem_cons.mp succeed).2
  | case3 before clause place later opens fault ended =>
    obtain ⟨accepted, checked⟩ := succeed _ (List.mem_singleton_self _)
    nomatch ended.symm.trans checked
  | case4 before clause place later closed inductionHypothesis =>
    rw [List.map_cons, run_cons_of_not_opens closed]
    exact inductionHypothesis succeed

/-- Behind a front that comes to a value, the loop goes on from there; behind one that fails,
nothing is called. -/
theorem called_append (element : α) (before : Bool) (front later : List (Clause α × Nat)) :
    called element before (front ++ later) = called element before front ++
      match (run element before (front.map Prod.fst)).result with
      | .ok between => called element between later
      | .error _ => [] := by
  fun_induction called element before front with
  | case1 => rfl
  | case2 before clause place front opens accepted ended inductionHypothesis =>
    rw [List.map_cons, run_cons_of_ok opens ended, Outcome.result_behind,
      List.cons_append, called, if_pos opens, ended, List.cons_append, ← inductionHypothesis]
  | case3 before clause place front opens fault ended =>
    rw [List.map_cons, run_cons_of_error opens ended, List.cons_append,
      called, if_pos opens, ended, List.append_nil]
  | case4 before clause place front closed inductionHypothesis =>
    rw [List.map_cons, run_cons_of_not_opens closed, List.cons_append,
      called, if_neg closed, inductionHypothesis]

/-- The places of the calls are places of the clauses. -/
theorem place_of_mem_called {element : α} {before : Bool} {clauses : List (Clause α)} {start : Nat}
    {call : CheckCall α} (made : call ∈ called element before (clauses.zipIdx start)) :
    start ≤ call.2 ∧ call.2 < start + clauses.length := by
  have place := (called_sublist element before _).subset made
  rw [List.map_zipIdx] at place
  have bound := List.snd_lt_add_of_mem_zipIdx place
  rw [List.length_map] at bound
  exact ⟨List.le_snd_of_mem_zipIdx place, bound⟩

end Clause

/-! ### Conditions -/

/-- A condition on elements: a first check, and the clauses that are joined to it in turn. -/
structure Condition (α : Type) where
  first : α → Outcome Bool
  clauses : List (Clause α)

namespace Condition

/-- The calls that restrict a query by the condition. -/
def refinements (condition : Condition α) : Chain α β :=
  .filter condition.first :: condition.clauses.map Clause.refinement

/-- The predicate that the checks are combined to, without a query. -/
def predicate (condition : Condition α) : Predicate α :=
  condition.clauses.foldl Clause.joinTo (.of condition.first)

/-- The checks in their order. -/
def checks (condition : Condition α) : List (α → Outcome Bool) :=
  condition.first :: condition.clauses.map Clause.check

/-- The clauses with the first check as one of them, behind `or`, since it can only admit. -/
def allClauses (condition : Condition α) : List (Clause α) :=
  ⟨.or, condition.first⟩ :: condition.clauses

/-- The checks that are called on an element. -/
def calls (condition : Condition α) (element : α) : List (CheckCall α) :=
  Clause.called element false condition.allClauses.zipIdx

/-- Whether some check that is the first or stands behind `or` accepts an element, and all those
behind `and` that follow it do. -/
def Holds (condition : Condition α) (element : α) : Prop :=
  (Predicate.of condition.first).accepts element ∧ Clause.Keep element condition.clauses ∨
    Clause.Admit element condition.clauses

/-- What it means to test an element strictly from left to right. The first check is called; a later
one if no check in front of it has failed, and those in front of it have come to the value that
leaves its connective open. No check is called twice or out of order. A check that fails fails the
test, and is the last one called; otherwise the element is accepted if the condition holds. -/
structure TestsInTurn (condition : Condition α) (element : α) (calls : List (CheckCall α))
    (outcome : Outcome Bool) : Prop where
  sublist : calls.Sublist condition.checks.zipIdx
  first_mem : (condition.first, 0) ∈ calls
  mem_iff : ∀ front clause later, condition.clauses = front ++ clause :: later →
    ((clause.check, front.length + 1) ∈ calls ↔
      (∀ call ∈ calls, call.2 < front.length + 1 → call.Succeeds element) ∧
        ∃ before,
          ((Condition.mk condition.first front).predicate.test element).result = .ok before ∧
            clause.connective.opens before)
  trace_eq : outcome.trace = calls.flatMap fun call => (call.1 element).trace
  result_of_fault : ∀ call ∈ calls, ∀ fault, (call.1 element).result = .error fault →
    outcome.result = .error fault
  result_of_ok : (∀ call ∈ calls, call.Succeeds element) →
    ∃ accepted, outcome.result = .ok accepted ∧ (accepted ↔ condition.Holds element)

theorem test_predicate (condition : Condition α) (element : α) :
    condition.predicate.test element = Clause.run element false condition.allClauses := by
  rw [predicate, Clause.test_foldl_joinTo]
  have opens : Connective.or.opens false := rfl
  exact (@Clause.run_cons_of_opens α element false ⟨.or, condition.first⟩ opens _).symm

theorem value_allClauses_iff (condition : Condition α) (element : α) :
    Clause.value element false condition.allClauses ↔ condition.Holds element := by
  show Clause.value element ((Predicate.of condition.first).accepts element) condition.clauses ↔ _
  exact Clause.value_iff

variable {condition : Condition α} {element : α} {front later : List (Clause α)}
  {clause : Clause α}

/-- The calls on a condition begin with those on its front. -/
theorem calls_eq_append (split : condition.clauses = front ++ clause :: later) :
    condition.calls element = (Condition.mk condition.first front).calls element ++
      match ((Condition.mk condition.first front).predicate.test element).result with
      | .ok between => Clause.called element between ((clause :: later).zipIdx (front.length + 1))
      | .error _ => [] := by
  have all : condition.allClauses =
      (Condition.mk condition.first front).allClauses ++ clause :: later := by
    rw [allClauses, split]
    rfl
  rw [calls, all, List.zipIdx_append, Clause.called_append, List.zipIdx_map_fst, ← test_predicate,
    Nat.zero_add]
  rfl

/-- The checks in front of a clause have not failed if they have come to a value. -/
theorem succeeds_of_ok (split : condition.clauses = front ++ clause :: later) {before : Bool}
    (ended : ((Condition.mk condition.first front).predicate.test element).result = .ok before) :
    ∀ call ∈ condition.calls element, call.2 < front.length + 1 → call.Succeeds element := by
  intro call made inFront
  rw [calls_eq_append split, ended, List.mem_append] at made
  rcases made with earlier | behind
  · cases result : (call.1 element).result with
    | ok accepted => exact ⟨accepted, result⟩
    | error fault =>
      have failed := Clause.result_run_of_fault earlier result
      rw [List.zipIdx_map_fst, ← test_predicate, ended] at failed
      nomatch failed
  · exact absurd (Clause.place_of_mem_called behind).1 (Nat.not_le.mpr inFront)

/-- A clause is called if those in front of it have come to a value that leaves it open. -/
theorem mem_calls_iff (split : condition.clauses = front ++ clause :: later) :
    (clause.check, front.length + 1) ∈ condition.calls element ↔
      ∃ before, ((Condition.mk condition.first front).predicate.test element).result = .ok before ∧
        clause.connective.opens before := by
  have notEarlier :
      (clause.check, front.length + 1) ∉ (Condition.mk condition.first front).calls element := by
    intro earlier
    have place := (Clause.place_of_mem_called earlier).2
    rw [allClauses, List.length_cons, Nat.zero_add] at place
    exact Nat.lt_irrefl _ place
  rw [calls_eq_append split, List.mem_append, or_iff_right notEarlier]
  cases ended : ((Condition.mk condition.first front).predicate.test element).result with
  | error fault => simp
  | ok before =>
    simp only [Except.ok.injEq, exists_eq_left']
    rw [List.zipIdx_cons]
    by_cases opens : clause.connective.opens before
    · exact iff_of_true (Clause.mem_called_of_opens opens _ _) opens
    · rw [Clause.called, if_neg opens]
      refine iff_of_false (fun behind => ?_) opens
      exact Nat.not_succ_le_self _ (Clause.place_of_mem_called behind).1

/-- The loop over the checks tests an element from left to right. -/
theorem testsInTurn (condition : Condition α) (element : α) :
    condition.TestsInTurn element (condition.calls element) (condition.predicate.test element) := by
  have loop : condition.predicate.test element =
      Clause.run element false (condition.allClauses.zipIdx.map Prod.fst) := by
    rw [List.zipIdx_map_fst, test_predicate]
  constructor
  case sublist =>
    have sublist := Clause.called_sublist element false condition.allClauses.zipIdx
    rwa [List.map_zipIdx] at sublist
  case first_mem =>
    have opens : Connective.or.opens false := rfl
    exact @Clause.mem_called_of_opens α element false ⟨.or, condition.first⟩ opens 0 _
  case mem_iff =>
    intro front clause later split
    rw [mem_calls_iff split]
    constructor
    · rintro ⟨before, ended, opens⟩
      exact ⟨succeeds_of_ok split ended, before, ended, opens⟩
    · exact And.right
  case trace_eq =>
    rw [loop]
    exact Clause.trace_run element false condition.allClauses.zipIdx
  case result_of_fault =>
    intro call made fault fails
    rw [loop]
    exact Clause.result_run_of_fault made fails
  case result_of_ok =>
    intro succeed
    obtain ⟨accepted, result⟩ := Clause.exists_run_ok succeed
    rw [loop]
    refine ⟨accepted, result, ?_⟩
    rw [List.zipIdx_map_fst] at result
    rw [← value_allClauses_iff, Clause.value_of_run_ok result]

/-! ### Queries with conditions -/

/-- Every clause is offered to a query that has a check already. -/
theorem refineAll?_clauses (source : List α) (predicate : Predicate α)
    (clauses : List (Clause α)) :
    Query.refineAll? (⟨source, predicate, none, .filtered⟩ : Query α β)
        (clauses.map Clause.refinement) =
      some ⟨source, clauses.foldl Clause.joinTo predicate, none, .filtered⟩ := by
  induction clauses generalizing predicate with
  | nil => rfl
  | cons clause later inductionHypothesis =>
    have refined : Query.refine? (⟨source, predicate, none, .filtered⟩ : Query α β)
        clause.refinement = some ⟨source, clause.joinTo predicate, none, .filtered⟩ := by
      obtain ⟨connective, check⟩ := clause
      cases connective <;> rfl
    rw [List.map_cons, Query.refineAll?, List.foldlM_cons, refined]
    exact inductionHypothesis (clause.joinTo predicate)

/-- A query that is restricted by a condition tests every element from left to right, and as the
predicate does that is combined of the checks alone. -/
theorem test_from_left_to_right (condition : Condition α) (source : List α) :
    ∃ query : Query α β, (Query.ofList source).refineAll? condition.refinements = some query ∧
      ∀ element, query.predicate.test element = condition.predicate.test element ∧
        condition.TestsInTurn element (condition.calls element) (query.predicate.test element) := by
  refine ⟨_, refineAll?_clauses source (Predicate.acceptAll.and (.of condition.first))
    condition.clauses, fun element => ?_⟩
  have same : (condition.clauses.foldl Clause.joinTo
      (Predicate.acceptAll.and (.of condition.first))).test element =
        condition.predicate.test element := by
    rw [predicate, Clause.test_foldl_joinTo, Clause.test_foldl_joinTo,
      Predicate.test_acceptAll_and]
  refine ⟨same, ?_⟩
  show condition.TestsInTurn element _ ((condition.clauses.foldl Clause.joinTo _).test element)
  rw [same]
  exact condition.testsInTurn element

end Condition

end StagedQuery
