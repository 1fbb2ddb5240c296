/-
This file proves that a run makes the planned calls up to the first that fails,
and nothing else before it sorts.

Going through the source while counting down the room is the same as making the
planned calls one after the other and reading the images off at the end. The
induction is on what is left of the source. The elements in front of it fix how
many were accepted, and with that which turns are still to come.
-/

import StagedQuery.Proofs.Run.Calls
import StagedQuery.Value.Order

namespace StagedQuery

variable {α β : Type}

/-! ### Images -/

namespace Mapper

/-- A projection that succeeds gives the image. -/
theorem images_cons_of_ok {mapper : Mapper α β} {earlierCalls : Nat} {element : α} {image : β}
    (ended : (mapper earlierCalls element).result = .ok image) (rest : List α) :
    mapper.images earlierCalls (element :: rest) =
      image :: mapper.images (earlierCalls + 1) rest := by
  have projects : mapper.image? earlierCalls element = some image := by
    rw [image?, ended]
    rfl
  rw [images, List.zipIdx_cons]
  exact List.filterMap_cons_some projects

/-- A projection that comes to the same image of an element of a list whenever it is called. It may
log what it likes. -/
def Computes (mapper : Mapper α β) (change : α → β) (items : List α) : Prop :=
  ∀ earlierCalls, ∀ element ∈ items, (mapper earlierCalls element).result = .ok (change element)

theorem Computes.images_eq {mapper : Mapper α β} {change : α → β} {items : List α}
    (computes : mapper.Computes change items) (earlierCalls : Nat) :
    mapper.images earlierCalls items = items.map change := by
  induction items generalizing earlierCalls with
  | nil => rfl
  | cons element rest inductionHypothesis =>
    obtain ⟨first, others⟩ := forall_and.mp fun calls => List.forall_mem_cons.mp (computes calls)
    rw [images_cons_of_ok (first earlierCalls), inductionHypothesis others, List.map_cons]

theorem length_images_le (mapper : Mapper α β) (earlierCalls : Nat) (elements : List α) :
    (mapper.images earlierCalls elements).length ≤ elements.length := by
  have filtered := List.length_filterMap_le (fun place : α × Nat => mapper.image? place.2 place.1)
    (elements.zipIdx earlierCalls)
  rwa [List.length_zipIdx] at filtered

end Mapper

namespace Phase

variable {phase : Phase α β}

/-! ### Room -/

theorem acceptedBefore_length {front rest : List α} (split : phase.source = front ++ rest) :
    phase.acceptedBefore front.length = front.countP phase.predicate.accepts := by
  unfold acceptedBefore
  rw [split, List.take_left]

/-- One element further, one more is accepted or none. -/
theorem acceptedBefore_succ {front rest : List α} {element : α}
    (split : phase.source = front ++ element :: rest) :
    phase.acceptedBefore (front.length + 1) =
      phase.acceptedBefore front.length + (phase.predicate.accepts element).toNat := by
  have next := @acceptedBefore_length α β phase (front ++ [element]) rest (by simpa using split)
  rw [List.length_append, List.length_singleton, List.countP_append,
    List.countP_singleton] at next
  rw [next, acceptedBefore_length split]
  cases phase.predicate.accepts element <;> rfl

theorem acceptedBefore_mono {first second : Nat} (before : first ≤ second) :
    phase.acceptedBefore first ≤ phase.acceptedBefore second :=
  (List.take_sublist_take_left before).countP_le

/-- How many elements a run may accept. -/
def room (phase : Phase α β) : Nat := phase.limit.elim phase.source.length UInt64.toNat

theorem hasRoom_iff_lt_room {position : Nat} (inside : position < phase.source.length) :
    phase.hasRoom position ↔ phase.acceptedBefore position < phase.room := by
  unfold hasRoom room
  cases phase.limit with
  | some count => simp
  | none =>
    have accepted : phase.acceptedBefore position ≤ position :=
      Nat.le_trans List.countP_le_length (List.length_take_le _ _)
    simpa using Nat.lt_of_le_of_lt accepted inside

/-- Of what is filtered out of the source, the limit leaves as much as there is room for. -/
theorem atMost_filter (phase : Phase α β) (passes : α → Bool) :
    atMost phase.limit (phase.source.filter passes) =
      (phase.source.filter passes).take phase.room := by
  unfold atMost room
  cases phase.limit with
  | some count => rfl
  | none => exact (List.take_of_length_le (List.length_filter_le _ _)).symm

theorem accepted_of_unlimited (unlimited : phase.limit = none) :
    phase.accepted = phase.source.filter phase.predicate.accepts := by
  rw [accepted, unlimited]
  rfl

/-! ### Making calls -/

/-- Without room, no turn is planned. -/
theorem flatMap_turn_of_full {start : Nat} {items : List α}
    (full : ∀ position, start ≤ position → position < start + items.length →
      phase.hasRoom position = false) :
    (items.zipIdx start).flatMap (fun place => phase.turn place.2 place.1) = [] := by
  rw [List.flatMap_eq_nil_iff]
  rintro ⟨element, position⟩ place
  rw [turn, full position (List.le_snd_of_mem_zipIdx place) (List.snd_lt_add_of_mem_zipIdx place)]
  rfl

/-- With room, the first element has its turn before the rest. -/
theorem forM_turn_cons_of_hasRoom {position : Nat} (room : phase.hasRoom position) (element : α)
    (rest : List α) :
    forM (((element :: rest).zipIdx position).flatMap fun place => phase.turn place.2 place.1)
        phase.outcome =
      phase.predicate.test element >>= fun _ =>
        (if phase.predicate.accepts element then
            (fun _ => ()) <$> phase.mapper (phase.acceptedBefore position) element
          else pure ()) >>= fun _ =>
        forM ((rest.zipIdx (position + 1)).flatMap fun place => phase.turn place.2 place.1)
          phase.outcome := by
  rw [List.zipIdx_cons, List.flatMap_cons, List.forM_append, turn, if_pos room]
  by_cases accepts : phase.predicate.accepts element
  · rw [if_pos accepts, if_pos accepts]
    simp only [List.forM_cons, List.forM_nil, outcome, bind_map_left, bind_assoc, pure_bind]
  · rw [if_neg accepts, if_neg accepts]
    simp only [List.forM_cons, List.forM_nil, outcome, bind_map_left, bind_assoc, pure_bind]

/-- Where the room is a number, going through the rest of the source makes the calls planned on
it. -/
theorem gather_eq {front items : List α} {room : Nat} (split : phase.source = front ++ items)
    (rooms : ∀ position, front.length ≤ position → position < phase.source.length →
      (phase.hasRoom position ↔
        phase.acceptedBefore position < phase.acceptedBefore front.length + room)) :
    Query.gather phase.predicate phase.mapper room (phase.acceptedBefore front.length) items =
      (fun _ => phase.mapper.images (phase.acceptedBefore front.length)
          ((items.filter phase.predicate.accepts).take room)) <$>
        forM ((items.zipIdx front.length).flatMap fun place => phase.turn place.2 place.1)
          phase.outcome := by
  induction items generalizing front room with
  | nil =>
    rw [List.filter_nil, List.take_nil]
    rfl
  | cons element rest inductionHypothesis =>
    have length : phase.source.length = front.length + (rest.length + 1) := by
      rw [split, List.length_append, List.length_cons]
    cases room with
    | zero =>
      have full : ∀ position, front.length ≤ position →
          position < front.length + (element :: rest).length → phase.hasRoom position = false := by
        intro position behind inside
        have accepted := phase.acceptedBefore_mono behind
        have room := rooms position behind (by rw [length]; exact inside)
        rw [Bool.eq_false_iff]
        exact fun hasRoom => absurd (room.mp hasRoom) (Nat.not_lt.mpr accepted)
      rw [Query.gather_zero, flatMap_turn_of_full full, List.take_zero]
      rfl
    | succ fewer =>
      have hasRoom : phase.hasRoom front.length :=
        (rooms front.length (Nat.le_refl _) (by omega)).mpr (by omega)
      have nextSplit : phase.source = (front ++ [element]) ++ rest := by
        rw [split, List.append_assoc, List.singleton_append]
      have nextLength : (front ++ [element]).length = front.length + 1 := List.length_append
      have nextAccepted := acceptedBefore_succ split
      rw [forM_turn_cons_of_hasRoom hasRoom, Query.gather, map_bind]
      refine Outcome.bind_congr_of_ok fun accepted tested => ?_
      have accepts := Predicate.accepts_of_ok tested
      rw [accepts] at nextAccepted ⊢
      cases accepted with
      | false =>
        rw [Bool.toNat_false, Nat.add_zero] at nextAccepted
        have next := @inductionHypothesis (front ++ [element]) (fewer + 1) nextSplit
        rw [nextLength, nextAccepted] at next
        rw [List.filter_cons_of_neg (Bool.eq_false_iff.mp accepts)]
        simp only [Bool.false_eq_true, if_false, pure_bind]
        exact next fun position behind => rooms position (Nat.le_of_succ_le behind)
      | true =>
        rw [Bool.toNat_true] at nextAccepted
        have next := @inductionHypothesis (front ++ [element]) fewer nextSplit
        rw [nextLength, nextAccepted] at next
        rw [List.filter_cons_of_pos accepts, List.take_succ_cons]
        simp only [if_true, bind_map_left, map_bind]
        refine Outcome.bind_congr_of_ok fun image projected => ?_
        rw [Mapper.images_cons_of_ok projected, next]
        · simp only [bind_pure_comp, Functor.map_map]
        · intro position behind inside
          rw [Nat.add_assoc, Nat.add_comm 1]
          exact rooms position (Nat.le_of_succ_le behind) inside

/-- Gathering makes the planned calls and comes to the images. -/
theorem projected_eq (query : Query α β) (mapper : Mapper α β) :
    query.projected mapper =
      (fun _ => (query.phase mapper).images) <$>
        forM (query.phase mapper).planned (query.phase mapper).outcome := by
  have rooms : query.room = (query.phase mapper).room := by
    unfold Query.room room Query.phase
    cases query.limit <;> rfl
  have none : (query.phase mapper).acceptedBefore 0 = 0 := rfl
  have gathered := @gather_eq α β (query.phase mapper) [] query.source query.room rfl
  rw [List.length_nil, none, Nat.zero_add, rooms] at gathered
  rw [Query.projected, images, accepted, atMost_filter, rooms]
  exact gathered fun position _ inside => hasRoom_iff_lt_room inside

/-- What is gathered is as long as elements are accepted, as far as there is room for them. -/
theorem length_of_gathered {predicate : Predicate α} {mapper : Mapper α β} {items : List α}
    {room earlierCalls : Nat} {images : List β}
    (gathered : (Query.gather predicate mapper room earlierCalls items).result = .ok images) :
    images.length = min room (items.countP predicate.accepts) := by
  induction items generalizing room earlierCalls images with
  | nil =>
    obtain rfl : [] = images := Except.ok.inj gathered
    exact (Nat.min_zero room).symm
  | cons element rest inductionHypothesis =>
    cases room with
    | zero =>
      obtain rfl : [] = images := Except.ok.inj gathered
      exact (Nat.zero_min _).symm
    | succ fewer =>
      obtain ⟨accepted, tested, later⟩ := Outcome.exists_ok_of_bind_ok gathered
      have accepts := Predicate.accepts_of_ok tested
      cases accepted with
      | false =>
        rw [List.countP_cons_of_neg (Bool.eq_false_iff.mp accepts)]
        exact inductionHypothesis later
      | true =>
        obtain ⟨image, _, behind⟩ := Outcome.exists_ok_of_bind_ok later
        obtain ⟨others, restGathered, joined⟩ := Outcome.exists_ok_of_bind_ok behind
        obtain rfl : image :: others = images := Except.ok.inj joined
        rw [List.countP_cons_of_pos accepts, List.length_cons, inductionHypothesis restGathered,
          Nat.succ_min_succ]

/-! ### What calls come to -/

theorem fault?_eq_some_iff {call : Call α} {fault : Fault} :
    phase.fault? call = some fault ↔ (phase.outcome call).result = .error fault := by
  unfold fault?
  cases (phase.outcome call).result <;> simp

theorem fault?_eq_none_iff {call : Call α} :
    phase.fault? call = none ↔ (phase.outcome call).result = .ok () := by
  unfold fault?
  cases (phase.outcome call).result <;> simp

/-- Making calls in turn logs what the calls up to the first failing one log. -/
theorem trace_forM (planned : List (Call α)) :
    (forM planned phase.outcome).trace =
      (phase.upToFault planned).flatMap fun call => (phase.outcome call).trace := by
  induction planned with
  | nil => rfl
  | cons call rest inductionHypothesis =>
    rw [List.forM_cons]
    cases ended : phase.fault? call with
    | some fault =>
      rw [Outcome.bind_of_error (fault?_eq_some_iff.mp ended), upToFault_cons_of_fault ended,
        List.flatMap_singleton]
    | none =>
      rw [Outcome.bind_of_ok (fault?_eq_none_iff.mp ended), upToFault_cons_of_none ended,
        List.flatMap_cons, Outcome.trace_behind, inductionHypothesis]

/-- A call that fails is the last one and fails the whole. -/
theorem result_forM_of_fault {planned : List (Call α)} {call : Call α}
    (made : call ∈ phase.upToFault planned) {fault : Fault}
    (fails : phase.fault? call = some fault) :
    (forM planned phase.outcome).result = .error fault := by
  induction planned with
  | nil => nomatch made
  | cons first rest inductionHypothesis =>
    rw [List.forM_cons]
    cases ended : phase.fault? first with
    | some other =>
      rw [upToFault_cons_of_fault ended, List.mem_singleton] at made
      rw [← made, fails] at ended
      rw [← made, Outcome.bind_of_error (fault?_eq_some_iff.mp fails)]
    | none =>
      rw [upToFault_cons_of_none ended, List.mem_cons] at made
      rw [Outcome.bind_of_ok (fault?_eq_none_iff.mp ended), Outcome.result_behind]
      refine inductionHypothesis (made.resolve_left fun isFirst => ?_)
      rw [isFirst, ended] at fails
      nomatch fails

theorem result_forM_of_none {planned : List (Call α)}
    (succeed : ∀ call ∈ phase.upToFault planned, phase.fault? call = none) :
    (forM planned phase.outcome).result = .ok () := by
  induction planned with
  | nil => rfl
  | cons first rest inductionHypothesis =>
    obtain ⟨firstSucceeds, restSucceed⟩ := forall_mem_upToFault_cons.mp succeed
    rw [List.forM_cons, Outcome.bind_of_ok (fault?_eq_none_iff.mp firstSucceeds),
      Outcome.result_behind]
    exact inductionHypothesis restSucceed

/-- If a call fails, gathering fails as it does, with the log up to it. -/
theorem projected_of_fault {query : Query α β} {mapper : Mapper α β} {call : Call α}
    (made : call ∈ (query.phase mapper).calls) {fault : Fault}
    (fails : (query.phase mapper).fault? call = some fault) :
    query.projected mapper = ⟨(query.phase mapper).trace, .error fault⟩ := by
  rw [projected_eq]
  refine Outcome.ext ?_ ?_
  · rw [Outcome.trace_map]
    exact trace_forM _
  · rw [Outcome.result_map, result_forM_of_fault made fails]
    rfl

/-- If no call fails, gathering comes to the images. -/
theorem projected_of_none {query : Query α β} {mapper : Mapper α β}
    (succeed : ∀ call ∈ (query.phase mapper).calls, (query.phase mapper).fault? call = none) :
    query.projected mapper = ⟨(query.phase mapper).trace, .ok (query.phase mapper).images⟩ := by
  rw [projected_eq]
  refine Outcome.ext ?_ ?_
  · rw [Outcome.trace_map]
    exact trace_forM _
  · rw [Outcome.result_map, result_forM_of_none succeed]
    rfl

/-! ### Calls and selections -/

theorem outcome_of_select [BEq β] [Ord β] {query : Query α β} {selection : Selection α β}
    {evaluation : Evaluation (Found β)} (offered : query.select? selection = some evaluation) :
    evaluation.outcome = selection.extent.answer <$>
      (query.projected selection.projection.mapper >>= fun items =>
        query.stage.sorting.apply (query.remaining selection.extent.paging items)) := by
  unfold Query.select? at offered
  split at offered
  · cases offered
    rfl
  · nomatch offered

/-- However a query sorts and drops duplicates, and however much of its result is asked for, its
run makes the same calls in turn. If one of them fails, the run ends with the fault of that call
and the log so far, and nothing is compared. If none fails, only sorting adds to the log. -/
theorem select_makes_calls [BEq β] [Ord β] (phase : Phase α β) :
    phase.InTurn phase.calls ∧
      ∀ (query : Query α β) (selection : Selection α β) (evaluation : Evaluation (Found β)),
        query.phase selection.projection.mapper = phase →
        query.select? selection = some evaluation →
          (∀ call ∈ phase.calls, ∀ fault, (phase.outcome call).result = .error fault →
            evaluation.outcome =
              ⟨phase.calls.flatMap fun made => (phase.outcome made).trace, .error fault⟩) ∧
          ((∀ call ∈ phase.calls, (phase.outcome call).result = .ok ()) →
            evaluation.outcome =
              (selection.extent.answer <$> query.stage.sorting.apply
                  (query.remaining selection.extent.paging phase.images)).behind
                (phase.calls.flatMap fun made => (phase.outcome made).trace)) := by
  refine ⟨phase.inTurn_calls, fun query selection evaluation same offered => ?_⟩
  subst same
  rw [outcome_of_select offered]
  constructor
  · intro call made fault fails
    rw [projected_of_fault made (fault?_eq_some_iff.mpr fails)]
    rfl
  · intro succeed
    rw [projected_of_none fun call made => fault?_eq_none_iff.mpr (succeed call made),
      Outcome.mk_ok_bind]
    exact Outcome.ext (by simp [trace]) (by simp)

/-- The second accepted element is projected second and fails, so the fourth is not tested. -/
theorem select_makes_calls_of_failing_projection :
    let truth : Bool → Value := Value.bool
    let check : Value → Outcome Bool := fun element =>
      ⟨[⟨"test", [element]⟩], .ok (element == truth true)⟩
    let mapper : Mapper Value := fun earlierCalls element =>
      ⟨[⟨"project", [.int earlierCalls, element]⟩],
        if earlierCalls = 0 then .ok element else .error .overflow⟩
    let query : Query Value :=
      ⟨[truth true, truth false, truth true, truth true], .of check, some 3, .ordered⟩
    ∃ evaluation, query.select? ⟨.mapped mapper, .first⟩ = some evaluation ∧
      evaluation.outcome =
        ⟨[⟨"test", [truth true]⟩, ⟨"project", [.int 0, truth true]⟩, ⟨"test", [truth false]⟩,
            ⟨"test", [truth true]⟩, ⟨"project", [.int 1, truth true]⟩], .error .overflow⟩ := by
  intro truth check mapper query
  refine ⟨_, rfl, ?_⟩
  have made : .project 2 (truth true) ∈ (query.phase mapper).calls := by
    have calls : (query.phase mapper).calls =
        [.test 0 (truth true), .project 0 (truth true), .test 1 (truth false),
          .test 2 (truth true), .project 2 (truth true)] := rfl
    rw [calls]
    simp
  exact ((select_makes_calls (query.phase mapper)).2 query ⟨.mapped mapper, .first⟩ _ rfl rfl).1 _
    made .overflow rfl

end Phase

end StagedQuery
