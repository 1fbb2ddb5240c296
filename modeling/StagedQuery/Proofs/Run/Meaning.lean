/-
This file proves what a legal chain means: what it selects from its source, if
none of the caller's functions fails.

The meaning names the steps one after the other, each on the whole list. A run
fuses the first three and stops early, so an element behind the last one that is
kept is never tested, and its test may well fail. The meaning nevertheless speaks
of the whole source, since taking at most so many elements that pass depends only
on those in front of which fewer than that many pass.
-/

import StagedQuery.Proofs.Construction.Chains
import StagedQuery.Proofs.Order.Values
import StagedQuery.Proofs.Paging.Slices
import StagedQuery.Proofs.Run.Gathering
import StagedQuery.Proofs.Sorting.Comparisons

namespace StagedQuery

variable {α β : Type}

/-! ### Meaning -/

namespace Chain

/-- What a chain selects from a source. -/
def meaning [BEq β] [Ord β] (chain : Chain α β) (source : List α) (mapper : Mapper α β)
    (paging : Option Paging) : List β :=
  let passing := source.filter (passes chain)
  let capped := atMost (limit? chain) passing
  let images := mapper.images 0 capped
  let kept := if isDistinct chain then images.eraseDups else images
  let shown := paging.elim kept fun paging => stretch paging.perPage.toNat paging.page.toNat kept
  (sorting chain).arranged shown

/-- What a selection answers: all that the chain means without a page, what it means with one, or
the first of what it means without one. Without a mapper, the elements stay as they are. -/
def answer [BEq β] [Ord β] (chain : Chain α β) (source : List α) : Selection α β → Found β
  | ⟨.plain same, .all⟩ =>
    .elements (meaning chain source (fun _ element => pure (cast same element)) none)
  | ⟨.plain same, .page paging⟩ =>
    .elements (meaning chain source (fun _ element => pure (cast same element)) (some paging))
  | ⟨.plain same, .first⟩ =>
    .first (meaning chain source (fun _ element => pure (cast same element)) none).head?
  | ⟨.mapped mapper, .all⟩ => .elements (meaning chain source mapper none)
  | ⟨.mapped mapper, .page paging⟩ => .elements (meaning chain source mapper (some paging))
  | ⟨.mapped mapper, .first⟩ => .first (meaning chain source mapper none).head?

end Chain

/-! ### What is never tested -/

/-- At most so many elements that pass depend only on those in front of which fewer pass. -/
theorem take_filter_congr {first second : α → Bool} {items : List α} {room : Nat}
    (alike : ∀ front element rest, items = front ++ element :: rest → front.countP first < room →
      first element = second element) :
    (items.filter first).take room = (items.filter second).take room := by
  induction items generalizing room with
  | nil => rfl
  | cons element rest inductionHypothesis =>
    cases room with
    | zero => rw [List.take_zero, List.take_zero]
    | succ fewer =>
      have same := alike [] element rest rfl (Nat.succ_pos fewer)
      by_cases passes : first element
      · rw [List.filter_cons_of_pos passes, List.filter_cons_of_pos (same ▸ passes),
          List.take_succ_cons, List.take_succ_cons, inductionHypothesis]
        intro front other behind split fewerPass
        refine alike (element :: front) other behind (by rw [split, List.cons_append]) ?_
        rw [List.countP_cons_of_pos passes]
        exact Nat.succ_lt_succ fewerPass
      · rw [List.filter_cons_of_neg passes, List.filter_cons_of_neg (same ▸ passes),
          inductionHypothesis]
        intro front other behind split fewerPass
        refine alike (element :: front) other behind (by rw [split, List.cons_append]) ?_
        rwa [List.countP_cons_of_neg passes]

namespace Phase

/-- In a run in which no call fails, every element that is tested has a test that succeeds. -/
theorem test_of_succeeds {phase : Phase α β}
    (succeed : ∀ call ∈ phase.calls, (phase.outcome call).result = .ok ()) {front rest : List α}
    {element : α} (split : phase.source = front ++ element :: rest)
    (room : phase.acceptedBefore front.length < phase.room) :
    (phase.predicate.test element).result = .ok (phase.predicate.accepts element) := by
  have inside : front.length < phase.source.length := by
    rw [split, List.length_append, List.length_cons]
    omega
  have tested : .test front.length element ∈ phase.calls := by
    rw [phase.inTurn_calls.mem_test_iff, ← hasRoom_iff]
    refine ⟨?_, fun call made _ => fault?_eq_none_iff.mpr (succeed call made),
      (hasRoom_iff_lt_room inside).mpr room⟩
    rw [split, List.getElem?_append_right (Nat.le_refl _), Nat.sub_self]
    rfl
  have ended := succeed _ tested
  unfold outcome at ended
  rw [Outcome.result_map] at ended
  cases result : (phase.predicate.test element).result with
  | ok accepted => rw [Predicate.accepts_of_ok result]
  | error fault =>
    rw [result] at ended
    nomatch ended

/-- The accepted elements of such a run are the first that pass any test that agrees. -/
theorem accepted_eq_atMost {phase : Phase α β}
    (succeed : ∀ call ∈ phase.calls, (phase.outcome call).result = .ok ()) {passes : α → Bool}
    (agrees : ∀ element accepted, (phase.predicate.test element).result = .ok accepted →
      passes element = accepted) :
    phase.accepted = atMost phase.limit (phase.source.filter passes) := by
  rw [accepted, atMost_filter, atMost_filter]
  refine take_filter_congr fun front element rest split room => ?_
  rw [← acceptedBefore_length split] at room
  exact (agrees element _ (test_of_succeeds succeed split room)).symm

end Phase

/-! ### The meaning of legal chains -/

namespace Chain

/-- What remains of the images of a legal chain's query is what the meaning shows. -/
theorem remaining_eq [BEq β] {source : List α} {chain : Chain α β} {query : Query α β}
    (described : Describes source chain query) {images : List β} {paging : Option Paging}
    (countable : images.length ≤ Paging.greatestCount) :
    query.remaining paging images =
      (let kept := if isDistinct chain then images.eraseDups else images
       paging.elim kept fun paging => stretch paging.perPage.toNat paging.page.toNat kept) := by
  have kept : query.stage.deduplication.apply images =
      if isDistinct chain then images.eraseDups else images := by
    rw [described.deduplication_eq]
    cases isDistinct chain <;> simp
  have bounded := Nat.le_trans (query.stage.deduplication.length_apply_le images) countable
  unfold Query.remaining
  cases paging with
  | none => exact kept
  | some paging =>
    show paging.slice (query.stage.deduplication.apply images) = _
    rw [paging.slice_eq_stretch bounded, kept]
    rfl

/-- The images in a run of a legal chain's query are those that the meaning speaks of. -/
theorem images_eq {source : List α} {chain : Chain α β} {query : Query α β}
    (described : Describes source chain query) {mapper : Mapper α β}
    (succeed : ∀ call ∈ (query.phase mapper).calls,
      ((query.phase mapper).outcome call).result = .ok ()) :
    (query.phase mapper).images =
      mapper.images 0 (atMost (limit? chain) (source.filter (passes chain))) := by
  unfold Phase.images
  rw [Phase.accepted_eq_atMost succeed described.passes_eq]
  show mapper.images 0 (atMost query.limit (query.source.filter (passes chain))) = _
  rw [described.limit_eq, described.source_eq]

theorem length_atMost_le (limit : Option UInt64) (items : List α) :
    (atMost limit items).length ≤ items.length := by
  cases limit with
  | none => exact Nat.le_refl _
  | some count => exact List.length_take_le' _ _

/-- A legal chain succeeds and selects what it means, however its calls are combined, if it ends in
a call that is offered, none of the caller's functions that are called fails, and the comparator,
if there is one, is a total preorder. -/
theorem select_eq_meaning [BEq β] [Ord β] {source : List α} {chain : Chain α β} {query : Query α β}
    {selection : Selection α β} (countable : source.length ≤ Paging.greatestCount)
    (legal : (Query.ofList source).refineAll? chain = some query)
    (offered : query.stage.offers selection)
    (lawful : ∀ comparator, .orderBy comparator ∈ chain → comparator.IsTotalPreorder)
    (succeed : ∀ call ∈ (query.phase selection.projection.mapper).calls,
      ((query.phase selection.projection.mapper).outcome call).result = .ok ()) :
    ∃ evaluation, query.select? selection = some evaluation ∧
      evaluation.outcome.result = .ok (chain.answer source selection) := by
  have described := describes_of_legal legal
  have sorts : query.stage.sorting.IsLawful := fun comparator byComparator =>
    lawful comparator (orderBy_mem_of_sorting_eq (described.sorting_eq ▸ byComparator))
  have images := images_eq described succeed
  have few : (atMost (limit? chain) (source.filter (passes chain))).length ≤ source.length :=
    Nat.le_trans (length_atMost_le _ _) (List.length_filter_le _ _)
  have imagesCountable : (query.phase selection.projection.mapper).images.length ≤
      Paging.greatestCount := by
    rw [images]
    exact Nat.le_trans (Mapper.length_images_le _ _ _) (Nat.le_trans few countable)
  have selected : query.select? selection = some _ := if_pos offered
  refine ⟨_, selected, ?_⟩
  rw [Phase.outcome_of_select selected, Outcome.result_map,
    Phase.projected_of_none fun call made => Phase.fault?_eq_none_iff.mpr (succeed call made),
    Outcome.mk_ok_bind, Outcome.result_behind, Sorting.result_apply sorts,
    remaining_eq described imagesCountable, images, described.sorting_eq]
  obtain ⟨same | mapper, extent⟩ := selection
  · subst same
    cases extent <;> rfl
  · cases extent <;> rfl

/-- A chain with every kind of call, one page of which is selected by a projection that depends on
how often it was called. -/
theorem select_eq_meaning_of_every_call :
    let isNumber : Value → Outcome Bool := fun element =>
      pure (element matches .int _)
    let isText : Value → Outcome Bool := fun element => pure (element matches .str _)
    let key : Value → Outcome Value := fun element => ⟨[⟨"key", [element]⟩], .ok element⟩
    let mapper : Mapper Value := fun earlierCalls element =>
      pure (.list [.int earlierCalls, element])
    let chain : Chain Value :=
      [.filter isNumber, .and isNumber, .or isText, .orderBy (Comparator.byKey key).reversed,
        .limit 9, .distinct, .limit 3]
    let source : List Value := [.int 2, .null, .str "a", .int 1, .int 2]
    let paging : Paging := ⟨1, 2, by decide, by decide⟩
    ∃ query evaluation, (Query.ofList source).refineAll? chain = some query ∧
      query.select? ⟨.mapped mapper, .page paging⟩ = some evaluation ∧
      evaluation.outcome.result =
        .ok (.elements (chain.meaning source mapper (some paging))) := by
  intro isNumber isText key mapper chain source paging
  have keyed : (Comparator.byKey key).IsTotalPreorder :=
    Comparator.isTotalPreorder_byKey fun element => rfl
  have lawful : ∀ comparator, .orderBy comparator ∈ chain → comparator.IsTotalPreorder := by
    intro comparator member
    have isOnly : comparator = (Comparator.byKey key).reversed := by simpa [chain] using member
    rw [isOnly]
    exact keyed.reversed
  let query : Query Value :=
    ⟨source, ((Predicate.acceptAll.and (.of isNumber)).and (.of isNumber)).or (.of isText), some 3,
      .special (.byComparator (Comparator.byKey key).reversed) .distinct⟩
  have legal : (Query.ofList source).refineAll? chain = some query := rfl
  have tested : ∀ element, ∃ accepted, (query.predicate.test element).result = .ok accepted := by
    intro element
    cases element <;> exact ⟨_, rfl⟩
  have succeed : ∀ call ∈ (query.phase mapper).calls,
      ((query.phase mapper).outcome call).result = .ok () := by
    rintro (⟨position, element⟩ | ⟨position, element⟩) _
    · obtain ⟨accepted, result⟩ := tested element
      show ((fun _ => ()) <$> query.predicate.test element).result = _
      rw [Outcome.result_map, result]
      rfl
    · rfl
  obtain ⟨evaluation, selected, result⟩ :=
    @select_eq_meaning Value Value _ _ source chain query ⟨.mapped mapper, .page paging⟩
      (by decide) legal rfl lawful succeed
  exact ⟨query, evaluation, legal, selected, result⟩

end Chain

end StagedQuery
