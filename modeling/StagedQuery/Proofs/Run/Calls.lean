/-
This file proves which functions of the caller a run calls, in which order, and
what becomes of the run when one of them fails.

The tests and projections of a run depend on the source, the predicate, the limit
and the mapper alone. These four plan a turn for every position of the source: if
fewer elements than the limit were accepted before it, the element is tested, and
projected at once if the test accepts it. The calls that are made are the planned
ones up to the first that fails. How many elements were accepted before a position
is counted on the source and not along the run, so that the plan can be read off
without running anything.
-/

import Mathlib.Data.List.Nodup
import StagedQuery.Query.Evaluation

namespace StagedQuery

variable {α β : Type}

/-! ### Results -/

/-- Whether a predicate accepts an element. A test that fails does not accept. -/
def Predicate.accepts (predicate : Predicate α) (element : α) : Bool :=
  (predicate.test element).result.toOption.getD false

theorem Predicate.accepts_of_ok {predicate : Predicate α} {element : α} {accepted : Bool}
    (ended : (predicate.test element).result = .ok accepted) :
    predicate.accepts element = accepted := by
  unfold Predicate.accepts
  rw [ended]
  rfl

/-- The image of an element, if its projection succeeds. -/
def Mapper.image? (mapper : Mapper α β) (earlierCalls : Nat) (element : α) : Option β :=
  (mapper earlierCalls element).result.toOption

/-- The images of elements that are projected in turn, after a number of earlier projections. An
element whose projection fails has none. -/
def Mapper.images (mapper : Mapper α β) (earlierCalls : Nat) (elements : List α) : List β :=
  (elements.zipIdx earlierCalls).filterMap fun place => mapper.image? place.2 place.1

/-- A list, cut off behind as many elements as a limit allows. -/
def atMost (limit : Option UInt64) (items : List α) : List α :=
  limit.elim items fun count => items.take count.toNat

/-! ### Phases -/

/-- What the tests and the projections of a run depend on. -/
structure Phase (α β : Type) where
  source : List α
  predicate : Predicate α
  limit : Option UInt64
  mapper : Mapper α β

/-- The phase of a run. The stage of the query has no part in it, and no page has. -/
def Query.phase (query : Query α β) (mapper : Mapper α β) : Phase α β where
  source := query.source
  predicate := query.predicate
  limit := query.limit
  mapper

namespace Phase

/-- A call of one of the caller's functions, on the element at a position of the source. -/
inductive Call (α : Type) where
  | test (position : Nat) (element : α)
  | project (position : Nat) (element : α)

namespace Call

/-- The position of the element that is called on. -/
def position : Call α → Nat
  | .test position _ | .project position _ => position

/-- The place of a call among all that could be made: every element has two places in succession,
the first for its test and the second for its projection. -/
def slot : Call α → Nat
  | .test position _ => 2 * position
  | .project position _ => 2 * position + 1

theorem slot_lt_test_iff {position : Nat} {element : α} (call : Call α) :
    call.slot < (Call.test position element).slot ↔ call.position < position := by
  cases call <;> simp only [slot, Call.position] <;> omega

end Call

variable (phase : Phase α β)

/-- How many elements before a position are accepted. -/
def acceptedBefore (position : Nat) : Nat :=
  (phase.source.take position).countP phase.predicate.accepts

/-- Whether fewer elements than the limit are accepted before a position. -/
def hasRoom (position : Nat) : Bool :=
  phase.limit.all fun count => phase.acceptedBefore position < count.toNat

/-- What a call comes to, apart from its value. -/
def outcome : Call α → Outcome Unit
  | .test _ element => (fun _ => ()) <$> phase.predicate.test element
  | .project position element =>
    (fun _ => ()) <$> phase.mapper (phase.acceptedBefore position) element

/-- The fault of a call, if it fails. -/
def fault? (call : Call α) : Option Fault :=
  match (phase.outcome call).result with
  | .ok _ => none
  | .error fault => some fault

/-- The calls on the element at a position, as long as no call fails. -/
def turn (position : Nat) (element : α) : List (Call α) :=
  if phase.hasRoom position then
    if phase.predicate.accepts element then [.test position element, .project position element]
    else [.test position element]
  else []

/-- The calls of a run in which no call fails. -/
def planned : List (Call α) :=
  phase.source.zipIdx.flatMap fun place => phase.turn place.2 place.1

/-- The calls up to the first that fails, which is the last one. -/
def upToFault : List (Call α) → List (Call α)
  | [] => []
  | call :: rest => call :: if (phase.fault? call).isSome then [] else upToFault rest

/-- The calls of a run. -/
def calls : List (Call α) := phase.upToFault phase.planned

/-- The log of the calls of a run. -/
def trace : List LogEntry := phase.calls.flatMap fun call => (phase.outcome call).trace

/-- The accepted elements, at most as many as the limit allows. -/
def accepted : List α := atMost phase.limit (phase.source.filter phase.predicate.accepts)

/-- The images of the accepted elements, each projected after those in front of it. -/
def images : List β := phase.mapper.images 0 phase.accepted

/-- What it means to call the caller's functions in turn: an element is tested if no call on an
element in front of it has failed and there is room for it, and it is projected if its test
accepts it. No call is made twice, and an element's projection is not put off. -/
structure InTurn (calls : List (Call α)) : Prop where
  mem_test_iff : ∀ position element, .test position element ∈ calls ↔
    phase.source[position]? = some element ∧
      (∀ call ∈ calls, call.position < position → phase.fault? call = none) ∧
      ∀ count, phase.limit = some count → phase.acceptedBefore position < count.toNat
  mem_project_iff : ∀ position element, .project position element ∈ calls ↔
    .test position element ∈ calls ∧ phase.predicate.accepts element
  pairwise_slot : calls.Pairwise fun earlier later => earlier.slot < later.slot

/-! ### The order of the calls -/

variable {phase}

theorem mem_turn_iff {call : Call α} {position : Nat} {element : α} :
    call ∈ phase.turn position element ↔
      phase.hasRoom position ∧ (call = .test position element ∨
        call = .project position element ∧ phase.predicate.accepts element) := by
  unfold turn
  by_cases room : phase.hasRoom position <;> by_cases accepts : phase.predicate.accepts element <;>
    simp [room, accepts]

theorem mem_planned_iff {call : Call α} :
    call ∈ phase.planned ↔ ∃ position element, phase.source[position]? = some element ∧
      call ∈ phase.turn position element := by
  rw [planned, List.mem_flatMap]
  constructor
  · rintro ⟨⟨element, position⟩, place, planned⟩
    exact ⟨position, element, List.mem_zipIdx_iff_getElem?.mp place, planned⟩
  · rintro ⟨position, element, place, planned⟩
    exact ⟨(element, position), List.mem_zipIdx_iff_getElem?.mpr place, planned⟩

theorem test_mem_planned_iff {position : Nat} {element : α} :
    .test position element ∈ phase.planned ↔
      phase.source[position]? = some element ∧ phase.hasRoom position := by
  rw [mem_planned_iff]
  constructor
  · rintro ⟨position', element', place, planned⟩
    obtain ⟨room, same | ⟨different, _⟩⟩ := mem_turn_iff.mp planned
    · cases same
      exact ⟨place, room⟩
    · nomatch different
  · rintro ⟨place, room⟩
    exact ⟨position, element, place, mem_turn_iff.mpr ⟨room, .inl rfl⟩⟩

theorem project_mem_planned_iff {position : Nat} {element : α} :
    .project position element ∈ phase.planned ↔
      .test position element ∈ phase.planned ∧ phase.predicate.accepts element := by
  rw [test_mem_planned_iff, mem_planned_iff]
  constructor
  · rintro ⟨position', element', place, planned⟩
    obtain ⟨room, different | ⟨same, accepts⟩⟩ := mem_turn_iff.mp planned
    · nomatch different
    · cases same
      exact ⟨⟨place, room⟩, accepts⟩
  · rintro ⟨⟨place, room⟩, accepts⟩
    exact ⟨position, element, place, mem_turn_iff.mpr ⟨room, .inr ⟨rfl, accepts⟩⟩⟩

theorem pairwise_slot_planned :
    phase.planned.Pairwise fun earlier later => earlier.slot < later.slot := by
  rw [planned, List.pairwise_flatMap]
  constructor
  · rintro ⟨element, position⟩ _
    unfold turn
    by_cases room : phase.hasRoom position <;>
      by_cases accepts : phase.predicate.accepts element <;> simp [room, accepts, Call.slot]
  · have positions : (phase.source.zipIdx.map Prod.snd).Pairwise (· < ·) := by
      rw [List.zipIdx_map_snd]
      exact List.pairwise_lt_range'
    rw [List.pairwise_map] at positions
    refine positions.imp fun {earlier later} before first firstPlanned second secondPlanned => ?_
    obtain ⟨_, rfl | ⟨rfl, _⟩⟩ := mem_turn_iff.mp firstPlanned <;>
      obtain ⟨_, rfl | ⟨rfl, _⟩⟩ := mem_turn_iff.mp secondPlanned <;>
      simp only [Call.slot] <;> omega

/-- No two planned calls share a place. -/
theorem eq_of_slot_eq {first second : Call α} (firstPlanned : first ∈ phase.planned)
    (secondPlanned : second ∈ phase.planned) (same : first.slot = second.slot) :
    first = second := by
  have distinct : (phase.planned.map Call.slot).Nodup :=
    List.pairwise_map.mpr (pairwise_slot_planned.imp Nat.ne_of_lt)
  exact List.inj_on_of_nodup_map distinct firstPlanned secondPlanned same

theorem upToFault_cons_of_fault {call : Call α} {fault : Fault}
    (fails : phase.fault? call = some fault) (rest : List (Call α)) :
    phase.upToFault (call :: rest) = [call] := by
  rw [upToFault, fails]
  rfl

theorem upToFault_cons_of_none {call : Call α} (succeeds : phase.fault? call = none)
    (rest : List (Call α)) :
    phase.upToFault (call :: rest) = call :: phase.upToFault rest := by
  rw [upToFault, succeeds]
  rfl

/-- No call that is made fails if the first one does not, and then none of the later ones that are
made. -/
theorem forall_mem_upToFault_cons {first : Call α} {rest : List (Call α)} :
    (∀ call ∈ phase.upToFault (first :: rest), phase.fault? call = none) ↔
      phase.fault? first = none ∧ ∀ call ∈ phase.upToFault rest, phase.fault? call = none := by
  cases ended : phase.fault? first with
  | some fault =>
    rw [upToFault_cons_of_fault ended, List.forall_mem_singleton, ended]
    exact iff_of_false nofun fun both => nomatch both.1
  | none => rw [upToFault_cons_of_none ended, List.forall_mem_cons, ended]

theorem upToFault_sublist (planned : List (Call α)) :
    (phase.upToFault planned).Sublist planned := by
  induction planned with
  | nil => exact List.Sublist.slnil
  | cons call rest inductionHypothesis =>
    cases ended : phase.fault? call with
    | some fault =>
      rw [upToFault_cons_of_fault ended]
      exact (List.nil_sublist rest).cons_cons call
    | none =>
      rw [upToFault_cons_of_none ended]
      exact inductionHypothesis.cons_cons call

/-- Of calls in order, those are made before which none that is made fails. -/
theorem mem_upToFault_iff {planned : List (Call α)}
    (ordered : planned.Pairwise fun earlier later => earlier.slot < later.slot) {call : Call α} :
    call ∈ phase.upToFault planned ↔ call ∈ planned ∧
      ∀ earlier ∈ phase.upToFault planned, earlier.slot < call.slot →
        phase.fault? earlier = none := by
  induction planned with
  | nil => simp [upToFault]
  | cons first rest inductionHypothesis =>
    obtain ⟨before, ordered⟩ := List.pairwise_cons.mp ordered
    cases ended : phase.fault? first with
    | some fault =>
      rw [upToFault_cons_of_fault ended, List.mem_singleton, List.mem_cons]
      constructor
      · rintro rfl
        refine ⟨.inl rfl, fun earlier isFirst earlierBefore => ?_⟩
        rw [List.mem_singleton.mp isFirst] at earlierBefore
        exact absurd earlierBefore (Nat.lt_irrefl _)
      · rintro ⟨isFirst | planned, unfailed⟩
        · exact isFirst
        · have succeeds := unfailed first (List.mem_singleton_self first) (before call planned)
          rw [ended] at succeeds
          nomatch succeeds
    | none =>
      rw [upToFault_cons_of_none ended, List.mem_cons, List.mem_cons, List.forall_mem_cons]
      constructor
      · rintro (rfl | made)
        · refine ⟨.inl rfl, fun _ => ended, fun earlier earlierMade earlierBefore => ?_⟩
          have later := before earlier ((upToFault_sublist rest).subset earlierMade)
          exact absurd earlierBefore (Nat.lt_asymm later)
        · obtain ⟨planned, unfailed⟩ := (inductionHypothesis ordered).mp made
          exact ⟨.inr planned, fun _ => ended, unfailed⟩
      · rintro ⟨isFirst | planned, _, unfailed⟩
        · exact .inl isFirst
        · exact .inr ((inductionHypothesis ordered).mpr ⟨planned, unfailed⟩)

theorem hasRoom_iff {position : Nat} :
    phase.hasRoom position ↔
      ∀ count, phase.limit = some count → phase.acceptedBefore position < count.toNat := by
  unfold hasRoom
  cases phase.limit <;> simp

theorem mem_calls_iff {call : Call α} :
    call ∈ phase.calls ↔ call ∈ phase.planned ∧
      ∀ earlier ∈ phase.calls, earlier.slot < call.slot → phase.fault? earlier = none :=
  mem_upToFault_iff pairwise_slot_planned

/-- An element that is accepted has a test that does not fail. -/
theorem fault?_test_of_accepts {position : Nat} {element : α}
    (accepts : phase.predicate.accepts element) : phase.fault? (.test position element) = none := by
  unfold Predicate.accepts at accepts
  unfold fault? outcome
  rw [Outcome.result_map]
  cases ended : (phase.predicate.test element).result with
  | ok value => rfl
  | error fault =>
    rw [ended] at accepts
    nomatch accepts

/-- The calls of a run are made in turn. -/
theorem inTurn_calls (phase : Phase α β) : phase.InTurn phase.calls where
  mem_test_iff position element := by
    rw [mem_calls_iff, test_mem_planned_iff, ← hasRoom_iff]
    constructor
    · rintro ⟨⟨place, room⟩, unfailed⟩
      exact ⟨place, fun call made before => unfailed call made (call.slot_lt_test_iff.mpr before),
        room⟩
    · rintro ⟨place, unfailed, room⟩
      exact ⟨⟨place, room⟩, fun call made before =>
        unfailed call made (call.slot_lt_test_iff.mp before)⟩
  mem_project_iff position element := by
    rw [mem_calls_iff, mem_calls_iff, project_mem_planned_iff]
    constructor
    · rintro ⟨⟨planned, accepts⟩, unfailed⟩
      exact ⟨⟨planned, fun call made before => unfailed call made (Nat.lt_succ_of_lt before)⟩,
        accepts⟩
    · rintro ⟨⟨planned, unfailed⟩, accepts⟩
      refine ⟨⟨planned, accepts⟩, fun call made before => ?_⟩
      rcases Nat.lt_or_eq_of_le (Nat.le_of_lt_succ before) with earlier | same
      · exact unfailed call made earlier
      · -- The only call in the place of the test is the test, which has accepted.
        have callPlanned := (mem_calls_iff.mp made).1
        obtain rfl := eq_of_slot_eq callPlanned planned same
        exact fault?_test_of_accepts accepts
  pairwise_slot := pairwise_slot_planned.sublist (upToFault_sublist phase.planned)

end Phase

end StagedQuery
