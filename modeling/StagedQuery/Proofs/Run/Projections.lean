/-
This file proves when a projection can be made after a query has selected instead of
while it runs.

A run projects before it drops duplicates, cuts a page and sorts. Each of these picks
elements by what they compare like and by where they stand. If the images compare with
one another as the elements do, the same places are picked in both lists, and it makes
no difference when the projection is made. Where nothing is compared, since the query
neither sorts nor drops duplicates, any projection will do. All this is about queries
without a comparator, which are queries for images of any type.
-/

import StagedQuery.Proofs.Duplicates.Representatives
import StagedQuery.Proofs.Run.Pages

namespace StagedQuery

open Std

variable {α β γ : Type}

/-! ### Images of another type -/

/-- The same strategy for images of another type. A comparator is only for images of its own. -/
def Sorting.forImages? : Sorting β → Option (Sorting γ)
  | .unsorted => some .unsorted
  | .natural => some .natural
  | .byComparator _ => none

namespace Stage

/-- The same stage for images of another type, unless it has a comparator. -/
def forImages? : Stage β → Option (Stage γ)
  | .unfiltered => some .unfiltered
  | .filtered => some .filtered
  | .ordered => some .ordered
  | .orderedBy _ => none
  | .special sorting deduplication =>
    sorting.forImages?.map fun sorting => .special sorting deduplication

theorem forImages?_self {stage : Stage β} (notPinned : stage.isPinned = false) :
    stage.forImages? = some stage := by
  cases stage with
  | unfiltered | filtered | ordered => rfl
  | orderedBy _ => nomatch notPinned
  | special sorting _ =>
    cases sorting with
    | unsorted | natural => rfl
    | byComparator _ => nomatch notPinned

/-- A stage that is not pinned sorts and drops duplicates in one way, whatever the images are. -/
theorem exists_forImages? {stage : Stage β} (notPinned : stage.isPinned = false) :
    ∃ other : Stage γ, stage.forImages? = some other ∧
      stage.sorting.forImages? = some other.sorting ∧
      other.deduplication = stage.deduplication := by
  cases stage with
  | unfiltered | filtered | ordered => exact ⟨_, rfl, rfl, rfl⟩
  | orderedBy _ => nomatch notPinned
  | special sorting _ =>
    cases sorting with
    | unsorted | natural => exact ⟨_, rfl, rfl, rfl⟩
    | byComparator _ => nomatch notPinned

end Stage

namespace Query

/-- The same query for images of another type, unless it has a comparator. -/
def forImages? (query : Query α β) : Option (Query α γ) :=
  query.stage.forImages?.map fun stage =>
    { source := query.source
      predicate := query.predicate
      limit := query.limit
      stage }

/-- For images of its own type, it is the query itself. -/
theorem forImages?_self {query : Query α β} (notPinned : query.stage.isPinned = false) :
    query.forImages? = some query := by
  rw [forImages?, Stage.forImages?_self notPinned]
  rfl

end Query

/-! ### Projections that do not count -/

namespace Query

/-- What is gathered with such a projection are the images of what is gathered without one. -/
theorem result_gather {mapper : Mapper α β} {change : α → β} {items : List α}
    (computes : mapper.Computes change items) (predicate : Predicate α)
    (room earlierCalls plainCalls : Nat) :
    (gather predicate mapper room earlierCalls items).result =
      (gather predicate Mapper.identity room plainCalls items).result.map (List.map change) := by
  induction items generalizing room earlierCalls plainCalls with
  | nil => rfl
  | cons element rest inductionHypothesis =>
    have restComputes : mapper.Computes change rest := fun calls item member =>
      computes calls item (List.mem_cons_of_mem element member)
    cases room with
    | zero => rfl
    | succ fewer =>
      cases tested : predicate.test element with
      | mk trace ended =>
        match ended with
        | .error fault =>
          rw [gather, gather, tested]
          rfl
        | .ok false =>
          rw [gather_cons_of_rejected tested, gather_cons_of_rejected tested,
            Outcome.result_behind, Outcome.result_behind]
          exact inductionHypothesis restComputes ..
        | .ok true =>
          have projected := computes earlierCalls element List.mem_cons_self
          rw [gather_cons_of_accepted tested, gather_cons_of_accepted tested,
            Outcome.result_behind, Outcome.result_behind, Outcome.bind_of_ok projected,
            Outcome.result_behind, Outcome.result_map,
            inductionHypothesis restComputes fewer (earlierCalls + 1) (plainCalls + 1),
            Mapper.identity, pure_bind, Outcome.result_map]
          cases (gather predicate Mapper.identity fewer (plainCalls + 1) rest).result <;> rfl

/-- What is gathered without a projection are elements of the source. -/
theorem mem_source_of_gathered {query : Query α} {items : List α}
    (gathered : (query.projected Mapper.identity).result = .ok items) {element : α}
    (member : element ∈ items) : element ∈ query.source := by
  let phase := query.phase Mapper.identity
  have computes : Mapper.identity.Computes id phase.accepted := fun _ _ _ => rfl
  have unchanged : phase.images = phase.accepted :=
    (computes.images_eq 0).trans (List.map_id phase.accepted)
  rw [Phase.images_of_projected gathered, unchanged, Phase.accepted, Phase.atMost_filter] at member
  exact List.mem_of_mem_filter (List.mem_of_mem_take member)

end Query

/-! ### Lists of images -/

/-- Where images are equal just as the elements are, the first ones of their kinds stand at the same
places. -/
theorem eraseDups_map [BEq α] [BEq β] {change : α → β} {items : List α}
    (alike : ∀ first ∈ items, ∀ second ∈ items,
      (change first == change second) = (first == second)) :
    (items.map change).eraseDups = items.eraseDups.map change := by
  match items with
  | [] => rfl
  | first :: rest =>
    have fewer := List.length_filter_le (fun item => !item == first) rest
    have others := @eraseDups_map _ _ change (rest.filter fun item => !item == first)
      fun left leftMember right rightMember =>
        alike left (List.mem_cons_of_mem first (List.mem_of_mem_filter leftMember)) right
          (List.mem_cons_of_mem first (List.mem_of_mem_filter rightMember))
    have same : rest.filter ((fun image => !image == change first) ∘ change) =
        rest.filter fun item => !item == first := by
      refine List.filter_congr fun item member => ?_
      rw [Function.comp_apply, alike item (List.mem_cons_of_mem first member) first
        List.mem_cons_self]
    rw [List.map_cons, List.eraseDups_cons, List.filter_map, same, others, List.eraseDups_cons,
      List.map_cons]
termination_by items.length
decreasing_by
  exact Nat.lt_succ_of_le fewer

/-- Dropping duplicates, or not, picks the same places among images that are equal just as the
elements are. -/
theorem Deduplication.apply_map [BEq α] [BEq β] {change : α → β} {items : List α}
    (deduplication : Deduplication) (alike : deduplication = .keepAll ∨
      ∀ first ∈ items, ∀ second ∈ items, (change first == change second) = (first == second)) :
    deduplication.apply (items.map change) = (deduplication.apply items).map change := by
  cases deduplication with
  | keepAll => rfl
  | distinct =>
    rw [apply_distinct, apply_distinct]
    exact eraseDups_map (alike.resolve_left nofun)

theorem Paging.slice_map (paging : Paging) (change : α → β) (items : List α) :
    paging.slice (items.map change) = (paging.slice items).map change := by
  rw [slice, slice, List.map_take, List.map_drop]

/-- Without a comparator, sorting or not picks the same places among images that compare just as the
elements do. -/
theorem Sorting.apply_map [Ord α] [Ord β] {change : α → β} {items : List α} {sorting : Sorting α}
    {other : Sorting β} (same : sorting.forImages? = some other) (alike : sorting = .unsorted ∨
      ∀ first ∈ items, ∀ second ∈ items,
        compare (change first) (change second) = compare first second) :
    ∃ sorted, sorting.apply items = pure sorted ∧
      other.apply (items.map change) = pure (sorted.map change) := by
  cases sorting with
  | unsorted =>
    cases same
    exact ⟨items, rfl, rfl⟩
  | natural =>
    cases same
    refine ⟨_, rfl, congrArg pure (List.map_mergeSort fun first member second other => ?_).symm⟩
    rw [alike.resolve_left nofun first member second other]
  | byComparator comparator => nomatch same

/-! ### Answers of images -/

/-- An answer with its elements changed. -/
def Found.map (change : β → γ) : Found β → Found γ
  | .elements items => .elements (items.map change)
  | .first element => .first (element.map change)

theorem Extent.answer_map (extent : Extent) (change : β → γ) (items : List β) :
    extent.answer (items.map change) = (extent.answer items).map change := by
  cases extent with
  | all | page _ => rfl
  | first => exact congrArg Found.first List.head?_map

namespace Query

variable [BEq α] [BEq β] {query : Query α} {other : Query α β} {change : α → β} {items : List α}

/-- What remains of a list stands at the same places among images that are equal just as the
elements are. -/
theorem remaining_map (same : other.stage.deduplication = query.stage.deduplication)
    (paging : Option Paging) (alike : query.stage.deduplication = .keepAll ∨
      ∀ first ∈ items, ∀ second ∈ items, (change first == change second) = (first == second)) :
    other.remaining paging (items.map change) = (query.remaining paging items).map change := by
  unfold remaining
  rw [same, query.stage.deduplication.apply_map alike]
  cases paging with
  | none => rfl
  | some paging => exact paging.slice_map change _

theorem mem_of_mem_remaining [EquivBEq α] {paging : Option Paging} {element : α}
    (member : element ∈ query.remaining paging items) : element ∈ items := by
  have kept : element ∈ query.stage.deduplication.apply items := by
    unfold remaining at member
    cases paging with
    | none => exact member
    | some paging => exact List.mem_of_mem_drop (List.mem_of_mem_take member)
  cases strategy : query.stage.deduplication with
  | keepAll => rwa [strategy] at kept
  | distinct =>
    rw [strategy, Deduplication.apply_distinct] at kept
    exact (eraseDups_sublist items).mem kept

variable [Ord α] [TransOrd α] [LawfulBEqOrd α] [Ord β] [LawfulBEqOrd β]

/-- Without a comparator, what a query makes of images is what it makes of the elements, with the
images in their places. -/
theorem exists_sorted_map (sorts : query.stage.sorting.forImages? = some other.stage.sorting)
    (same : other.stage.deduplication = query.stage.deduplication) (paging : Option Paging)
    (alike : (query.stage.sorting = .unsorted ∧ query.stage.deduplication = .keepAll) ∨
      ∀ first ∈ items, ∀ second ∈ items,
        compare (change first) (change second) = compare first second) :
    ∃ sorted, query.stage.sorting.apply (query.remaining paging items) = pure sorted ∧
      other.stage.sorting.apply (other.remaining paging (items.map change)) =
        pure (sorted.map change) := by
  have equals : query.stage.deduplication = .keepAll ∨ ∀ first ∈ items, ∀ second ∈ items,
      (change first == change second) = (first == second) := by
    refine alike.imp And.right fun compares first member second other => ?_
    rw [Bool.eq_iff_iff, ← LawfulBEqOrd.compare_eq_iff_beq, ← LawfulBEqOrd.compare_eq_iff_beq,
      compares first member second other]
  rw [remaining_map same paging equals]
  exact Sorting.apply_map sorts (alike.imp And.left fun compares first member second other =>
    compares first (mem_of_mem_remaining member) second (mem_of_mem_remaining other))

/-- Without a comparator, selecting by way of a projection to images of any type gives what
selecting without it gives, with every element projected, whatever extent is asked for, or fails as
that does. The projection must not fail on the source or count its calls, and images must compare
as the elements of the source do, unless the query neither sorts nor drops duplicates. -/
theorem select_projects_afterwards {mapper : Mapper α β} (notPinned : query.stage.isPinned = false)
    (computes : mapper.Computes change query.source)
    (preserves : (query.stage.sorting = .unsorted ∧ query.stage.deduplication = .keepAll) ∨
      ∀ first ∈ query.source, ∀ second ∈ query.source,
        compare (change first) (change second) = compare first second) (extent : Extent) :
    ∃ (other : Query α β) (plain : Evaluation (Found α)) (projected : Evaluation (Found β)),
      query.forImages? = some other ∧ query.select? ⟨.plain rfl, extent⟩ = some plain ∧
      other.select? ⟨.mapped mapper, extent⟩ = some projected ∧
      projected.outcome.result = plain.outcome.result.map (Found.map change) := by
  obtain ⟨stage, sameStage, sorts, same⟩ := @Stage.exists_forImages? α β _ notPinned
  let other : Query α β := ⟨query.source, query.predicate, query.limit, stage⟩
  have isOther : query.forImages? = some other := by
    rw [forImages?, sameStage]
    rfl
  have plainSelected : query.select? ⟨.plain rfl, extent⟩ = some _ :=
    if_pos (Stage.offers_of_not_isPinned notPinned _)
  have selected : other.select? ⟨.mapped mapper, extent⟩ = some _ := if_pos (Bool.or_true _)
  refine ⟨other, _, _, isOther, plainSelected, selected, ?_⟩
  rw [Phase.outcome_of_select plainSelected, Phase.outcome_of_select selected, Outcome.result_map,
    Outcome.result_map]
  show Except.map _ (other.projected mapper >>= _).result =
    (Except.map _ (query.projected Mapper.identity >>= _).result).map _
  have images : (other.projected mapper).result =
      (query.projected Mapper.identity).result.map (List.map change) :=
    result_gather computes query.predicate query.room 0 0
  cases gathered : (query.projected Mapper.identity).result with
  | error fault =>
    rw [gathered] at images
    rw [Outcome.bind_of_error gathered, Outcome.bind_of_error images]
    rfl
  | ok items =>
    rw [gathered] at images
    have alike := preserves.imp_right fun compares first member second other =>
      compares first (mem_source_of_gathered gathered member) second
        (mem_source_of_gathered gathered other)
    obtain ⟨sorted, plainSorted, imagesSorted⟩ :=
      @exists_sorted_map α β _ _ query other change items _ _ _ _ _ sorts same extent.paging alike
    rw [Outcome.bind_of_ok gathered, Outcome.bind_of_ok images, Outcome.result_behind,
      Outcome.result_behind, plainSorted, imagesSorted]
    exact congrArg Except.ok (extent.answer_map change sorted)

/-- Values compare as before when each is put into a list of its own. Truth values do not compare as
they do, but the second query compares nothing. -/
theorem select_projects_afterwards_of_tags :
    let wrap : Mapper Value := fun earlierCalls element =>
      ⟨[⟨"wrap", [.int earlierCalls, element]⟩], .ok (.list [element])⟩
    let source : List Value :=
      [.tagged (.int 2) "a", .tagged (.int 1) "b", .tagged (.int 2) "c", .tagged (.int 0) "d"]
    let sorted : Query Value := ⟨source, .acceptAll, some 3, .special .natural .distinct⟩
    let unsorted : Query Value := ⟨source, .acceptAll, some 2, .special .unsorted .keepAll⟩
    let isNumber : Value → Bool := fun element => element matches .int _
    let truths : Query Value Bool := ⟨source, .acceptAll, some 2, .special .unsorted .keepAll⟩
    (∃ projected, sorted.select? ⟨.mapped wrap, .all⟩ = some projected ∧
        projected.outcome.result = .ok (.elements
          [.list [.tagged (.int 1) "b"], .list [.tagged (.int 2) "a"]])) ∧
      unsorted.forImages? = some truths ∧
      ∃ projected,
        truths.select? ⟨.mapped fun _ element => pure (isNumber element), .first⟩ =
          some projected ∧
        projected.outcome.result = .ok (.first (some false)) := by
  intro wrap source sorted unsorted isNumber truths
  refine ⟨?_, rfl, ?_⟩
  · have alike : ∀ first ∈ source, ∀ second ∈ source,
        compare (Value.list [first]) (Value.list [second]) = compare first second := by
      intro first _ second _
      rw [Value.compare_eq_order, Value.order, Value.orderItems, Value.orderItems,
        Ordering.then_eq]
      rfl
    obtain ⟨other, plain, projected, isOther, plainSelected, selected, result⟩ :=
      @select_projects_afterwards Value Value _ _ sorted (fun element => .list [element]) _ _ _ _ _
        wrap rfl (fun _ _ _ => rfl) (.inr alike) .all
    obtain rfl : sorted = other := Option.some.inj isOther
    refine ⟨projected, selected, ?_⟩
    let kept : List Value := [.tagged (.int 2) "a", .tagged (.int 1) "b"]
    have plainResult : plain.outcome.result = .ok (.elements (mergeSorted compare kept)) := by
      obtain rfl := Option.some.inj plainSelected
      rfl
    have sortedKept : mergeSorted compare kept = kept.reverse :=
      Comparator.mergeSorted_of_sort_natural rfl
    rw [plainResult, sortedKept] at result
    exact result
  · obtain ⟨other, plain, projected, isOther, plainSelected, selected, result⟩ :=
      @select_projects_afterwards Value Bool _ _ unsorted isNumber _ _ _ _ _
        (fun _ element => pure (isNumber element)) rfl (fun _ _ _ => rfl) (.inl ⟨rfl, rfl⟩) .first
    obtain rfl : truths = other := Option.some.inj isOther
    refine ⟨projected, selected, ?_⟩
    obtain rfl := Option.some.inj plainSelected
    exact result

end Query

end StagedQuery
