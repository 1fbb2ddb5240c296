/-
This file proves how the pages of a query fit together.

Every page is a run of its own: it gathers everything anew, cuts its stretch out
of what is left without duplicates, and sorts that stretch alone. All these runs
gather the same, so the pages of an unsorted query are consecutive stretches of
the result without pages. The pages of a sorted query are the same stretches, each
of them sorted; together they hold what the whole result holds, but the order does
not reach from one page to the next.
-/

import Mathlib.Data.List.Perm.Basic
import StagedQuery.Proofs.Order.Values
import StagedQuery.Proofs.Paging.Slices
import StagedQuery.Proofs.Run.Gathering
import StagedQuery.Proofs.Sorting.Comparisons

namespace StagedQuery

variable {α β : Type}

/-! ### Answers in many elements -/

/-- The elements of an answer, if the run succeeds and answers with any number of them. -/
def Evaluation.elements? (evaluation : Evaluation (Found β)) : Option (List β) :=
  match evaluation.outcome.result with
  | .ok (.elements items) => some items
  | .ok (.first _) | .error _ => none

namespace Query

variable [BEq β] [Ord β] (query : Query α β) (projection : Projection α β)

/-- The elements that a query gives, on one page or in all, if the call is offered and succeeds. -/
def elements? (paging : Option Paging) : Option (List β) := do
  let evaluation ← query.select? ⟨projection, paging.elim .all .page⟩
  evaluation.elements?

/-- The page with a number among pages of a size, if there is such a page and the call is offered
and succeeds. -/
def page? (size number : Nat) : Option (List β) := do
  let paging ← (Paging.of? (.ofNat number) (.ofNat size)).toOption
  query.elements? projection (some paging)

/-- The pages with the numbers from a first one on, joined, if there are all of them. -/
def pages? (size first count : Nat) : Option (List β) :=
  ((List.range' first count).mapM (query.page? projection size)).map List.flatten

end Query

/-! ### What all pages have in common -/

theorem Paging.exists_of? {size number : Nat} (sizes : size ∈ Set.Icc 1 greatestCount)
    (numbers : number ∈ Set.Icc 1 greatestCount) :
    ∃ paging, of? (.ofNat number) (.ofNat size) = .ok paging ∧ paging.page.toNat = number ∧
      paging.perPage.toNat = size := by
  have inRange : ∀ {count : Nat}, count ∈ Set.Icc 1 greatestCount →
      (UInt64.ofNat count).toNat = count := fun counts =>
    UInt64.toNat_ofNat_of_lt' (Nat.lt_of_le_of_lt counts.2 (by decide))
  have number_pos : 0 < (UInt64.ofNat number).toNat := by
    rw [inRange numbers]
    exact numbers.1
  have size_pos : 0 < (UInt64.ofNat size).toNat := by
    rw [inRange sizes]
    exact sizes.1
  refine ⟨⟨.ofNat number, .ofNat size, number_pos, size_pos⟩, ?_, inRange numbers, inRange sizes⟩
  rw [of?, dif_pos number_pos, dif_pos size_pos]

theorem Phase.length_images_le (phase : Phase α β) : phase.images.length ≤ phase.source.length := by
  refine Nat.le_trans (Mapper.length_images_le _ _ _) ?_
  rw [Phase.accepted, Phase.atMost_filter]
  exact Nat.le_trans (List.length_take_le' _ _) (List.length_filter_le _ _)

theorem Phase.images_of_projected {query : Query α β} {mapper : Mapper α β} {images : List β}
    (gathered : (query.projected mapper).result = .ok images) :
    images = (query.phase mapper).images := by
  rw [projected_eq, Outcome.result_map] at gathered
  cases made : (forM (query.phase mapper).planned (query.phase mapper).outcome).result with
  | error fault =>
    rw [made] at gathered
    nomatch gathered
  | ok value =>
    rw [made] at gathered
    exact (Except.ok.inj gathered).symm

namespace Query

variable [BEq β] [Ord β] {query : Query α β} {projection : Projection α β} {paging : Option Paging}

theorem toOption_eq_some_iff {γ : Type} {result : Except Fault γ} {value : γ} :
    result.toOption = some value ↔ result = .ok value := by
  cases result with
  | error fault => exact ⟨nofun, nofun⟩
  | ok other => exact ⟨fun same => congrArg _ (Option.some.inj same), fun same =>
      congrArg _ (Except.ok.inj same)⟩

theorem elements?_of_gathered {extent : Extent} {evaluation : Evaluation (Found β)}
    (offered : query.select? ⟨projection, extent⟩ = some evaluation) (many : extent ≠ .first)
    {images : List β}
    (gathered : (query.projected projection.mapper).result = .ok images) :
    evaluation.elements? =
      (query.stage.sorting.apply (query.remaining extent.paging images)).result.toOption := by
  unfold Evaluation.elements?
  rw [Phase.outcome_of_select offered, Outcome.result_map, Outcome.bind_of_ok gathered,
    Outcome.result_behind]
  show (match Except.map extent.answer (query.stage.sorting.apply _).result with
    | .ok (.elements items) => some items
    | .ok (.first _) | .error _ => none) = _
  cases (query.stage.sorting.apply (query.remaining extent.paging images)).result with
  | error fault => rfl
  | ok items =>
    cases extent with
    | first => exact absurd rfl many
    | all | page paging => rfl

/-- An answer in many elements comes from a run that has gathered some. -/
theorem exists_gathered {extent : Extent} {evaluation : Evaluation (Found β)} {items : List β}
    (offered : query.select? ⟨projection, extent⟩ = some evaluation)
    (answered : evaluation.elements? = some items) :
    ∃ images, (query.projected projection.mapper).result = .ok images := by
  cases gathered : (query.projected projection.mapper).result with
  | ok images => exact ⟨images, rfl⟩
  | error fault =>
    unfold Evaluation.elements? at answered
    rw [Phase.outcome_of_select offered, Outcome.result_map, Outcome.bind_of_error gathered]
      at answered
    nomatch answered

/-- A query that gives elements has gathered images. -/
theorem exists_gathered_of_elements? {items : List β}
    (given : query.elements? projection paging = some items) :
    ∃ images, (query.projected projection.mapper).result = .ok images := by
  obtain ⟨evaluation, selected, answered⟩ := Option.bind_eq_some_iff.mp given
  exact exists_gathered selected answered

/-- A call that has given elements is offered, whichever of them are asked for. -/
theorem offers_of_elements? {items : List β}
    (given : query.elements? projection paging = some items) (extent : Extent) :
    query.stage.offers ⟨projection, extent⟩ := by
  obtain ⟨evaluation, selected, _⟩ := Option.bind_eq_some_iff.mp given
  by_contra refused
  have none : query.select? ⟨projection, paging.elim .all .page⟩ = none := if_neg refused
  rw [none] at selected
  nomatch selected

/-- Once the images are there, what remains of them is sorted. -/
theorem elements?_eq (offered : query.stage.offers ⟨projection, paging.elim .all .page⟩)
    {images : List β}
    (gathered : (query.projected projection.mapper).result = .ok images) :
    query.elements? projection paging =
      (query.stage.sorting.apply (query.remaining paging images)).result.toOption := by
  have selected : query.select? ⟨projection, paging.elim .all .page⟩ = some _ := if_pos offered
  unfold elements?
  rw [selected]
  show Evaluation.elements? _ = _
  cases paging with
  | none => exact elements?_of_gathered selected nofun gathered
  | some paging => exact elements?_of_gathered selected nofun gathered

/-- What is left of the result of a query before it is paged and sorted. -/
theorem exists_kept {items : List β} (countable : query.source.length ≤ Paging.greatestCount)
    (unpaged : query.elements? projection none = some items) :
    ∃ kept, kept.length ≤ Paging.greatestCount ∧
      (query.stage.sorting.apply kept).result = .ok items ∧
      ∀ size number, size ∈ Set.Icc 1 Paging.greatestCount →
        number ∈ Set.Icc 1 Paging.greatestCount →
          query.page? projection size number =
            (query.stage.sorting.apply (stretch size number kept)).result.toOption := by
  obtain ⟨images, gathered⟩ := exists_gathered_of_elements? unpaged
  have few : images.length ≤ query.source.length := by
    rw [Phase.images_of_projected gathered]
    exact Phase.length_images_le _
  have bounded := Nat.le_trans (query.stage.deduplication.length_apply_le images)
    (Nat.le_trans few countable)
  refine ⟨query.stage.deduplication.apply images, bounded, ?_, fun size number sizes numbers => ?_⟩
  · rw [elements?_eq (offers_of_elements? unpaged _) gathered] at unpaged
    exact toOption_eq_some_iff.mp unpaged
  · obtain ⟨paging, named, numberEq, sizeEq⟩ := Paging.exists_of? sizes numbers
    have cut : query.remaining (some paging) images =
        stretch size number (query.stage.deduplication.apply images) := by
      rw [← numberEq, ← sizeEq, ← paging.slice_eq_stretch bounded]
      rfl
    calc query.page? projection size number = query.elements? projection (some paging) := by
          rw [page?, named]
          rfl
      _ = (query.stage.sorting.apply (query.remaining (some paging) images)).result.toOption :=
          elements?_eq (offers_of_elements? unpaged _) gathered
      _ = _ := by rw [cut]

/-! ### Several pages -/

/-- Pages that are all there are joined one behind the other. -/
theorem pages?_eq {size first count : Nat} {page : Nat → List β}
    (found : ∀ number, first ≤ number → number < first + count →
      query.page? projection size number = some (page number)) :
    query.pages? projection size first count =
      some ((List.range' first count).map page).flatten := by
  have all : ∀ numbers : List Nat,
      (∀ number ∈ numbers, query.page? projection size number = some (page number)) →
        numbers.mapM (query.page? projection size) = some (numbers.map page) := by
    intro numbers
    induction numbers with
    | nil => exact fun _ => rfl
    | cons number rest inductionHypothesis =>
      intro found
      obtain ⟨here, later⟩ := List.forall_mem_cons.mp found
      rw [List.mapM_cons, here, inductionHypothesis later]
      rfl
  rw [pages?, all (List.range' first count) fun number member => ?_]
  · rfl
  · obtain ⟨behind, before⟩ := List.mem_range'_1.mp member
    exact found number behind before

/-- The last page is no further than the list is long. -/
theorem ceilDiv_le_length {size length : Nat} (size_pos : 0 < size) : length ⌈/⌉ size ≤ length := by
  rw [ceilDiv_le_iff_le_smul size_pos, smul_eq_mul]
  exact Nat.le_mul_of_pos_left length size_pos

/-! ### Pages of unsorted and of sorted queries -/

/-- How the pages of a size make up a list without a gap, and pages of a multiple of that size too:
each of these is as many of the smaller ones. -/
structure Partitions (query : Query α β) (projection : Projection α β) (size : Nat)
    (items : List β) : Prop where
  joined : query.pages? projection size 1 (items.length ⌈/⌉ size) = some items
  full : ∀ number ∈ Set.Ico 1 (items.length ⌈/⌉ size),
    ∃ page, query.page? projection size number = some page ∧ page.length = size
  empty : ∀ number ∈ Set.Icc 1 Paging.greatestCount, items.length ≤ (number - 1) * size →
    query.page? projection size number = some []
  coarser : ∀ number factor, 1 ≤ number → 1 ≤ factor →
    number * factor ≤ Paging.greatestCount → size * factor ≤ Paging.greatestCount →
      query.page? projection (size * factor) number =
        query.pages? projection size ((number - 1) * factor + 1) factor

/-- How sorted pages of a size hold the elements of a list. -/
structure Distributes (query : Query α β) (projection : Projection α β) (size : Nat)
    (ordering : β → β → Ordering) (items : List β) : Prop where
  ascending : ∀ number ∈ Set.Icc 1 Paging.greatestCount,
    ∃ page, query.page? projection size number = some page ∧ Ascending ordering page
  joined : ∃ joined, query.pages? projection size 1 (items.length ⌈/⌉ size) = some joined ∧
    joined.Perm items

theorem partitions_of_stretches {size : Nat} {items : List β}
    (countable : items.length ≤ Paging.greatestCount)
    (sizes : size ∈ Set.Icc 1 Paging.greatestCount)
    (pages : ∀ size number, size ∈ Set.Icc 1 Paging.greatestCount →
      number ∈ Set.Icc 1 Paging.greatestCount →
        query.page? projection size number = some (stretch size number items)) :
    query.Partitions projection size items := by
  have last : items.length ⌈/⌉ size ≤ Paging.greatestCount :=
    Nat.le_trans (ceilDiv_le_length sizes.1) countable
  constructor
  case joined =>
    rw [pages?_eq fun number behind before => pages size number sizes ⟨behind, by omega⟩,
      flatten_stretches_eq sizes.1]
  case full =>
    rintro number ⟨behind, before⟩
    refine ⟨_, pages size number sizes ⟨behind, by omega⟩, ?_⟩
    have inside : size * number < items.length := by
      rw [← not_le, ceilDiv_le_iff_le_smul sizes.1, smul_eq_mul, not_le] at before
      exact before
    obtain ⟨earlier, rfl⟩ := Nat.exists_eq_add_of_le' behind
    rw [length_stretch, Nat.add_sub_cancel, Nat.min_eq_left]
    rw [Nat.mul_succ, Nat.mul_comm] at inside
    omega
  case empty =>
    intro number numbers behind
    rw [pages size number sizes numbers, stretch_eq_nil behind]
  case coarser =>
    intro number factor number_pos factor_pos inRange sizeInRange
    have larger : size ≤ size * factor := Nat.le_mul_of_pos_right size factor_pos
    have further : number ≤ number * factor := Nat.le_mul_of_pos_right number factor_pos
    rw [pages (size * factor) number ⟨Nat.le_trans sizes.1 larger, sizeInRange⟩
      ⟨number_pos, Nat.le_trans further inRange⟩]
    obtain ⟨earlier, rfl⟩ := Nat.exists_eq_add_of_le' number_pos
    rw [Nat.add_sub_cancel, pages?_eq fun other behind before => pages size other sizes
      ⟨by omega, by rw [Nat.succ_mul] at inRange; omega⟩, flatten_stretches, stretch,
      Nat.add_sub_cancel, Nat.mul_comm size factor, Nat.mul_assoc]

theorem distributes_of_stretches {size : Nat} {ordering : β → β → Ordering} [Std.TransCmp ordering]
    {kept : List β} (countable : kept.length ≤ Paging.greatestCount)
    (sizes : size ∈ Set.Icc 1 Paging.greatestCount)
    (pages : ∀ number ∈ Set.Icc 1 Paging.greatestCount,
      query.page? projection size number = some (mergeSorted ordering (stretch size number kept))) :
    query.Distributes projection size ordering (mergeSorted ordering kept) := by
  have last : kept.length ⌈/⌉ size ≤ Paging.greatestCount :=
    Nat.le_trans (ceilDiv_le_length sizes.1) countable
  have whole : StablySorted ordering kept (mergeSorted ordering kept) := .mergeSorted kept
  constructor
  case ascending =>
    intro number numbers
    exact ⟨_, pages number numbers, (StablySorted.mergeSorted _).ascending⟩
  case joined =>
    rw [whole.length_eq, pages?_eq fun number behind before => pages number ⟨behind, by omega⟩]
    refine ⟨_, rfl, ?_⟩
    have pagewise : ∀ numbers : List Nat,
        (numbers.flatMap fun number => mergeSorted ordering (stretch size number kept)).Perm
          (numbers.flatMap fun number => stretch size number kept) := by
      intro numbers
      refine List.Perm.flatMap_left numbers fun number _ => ?_
      have page : StablySorted ordering (stretch size number kept) _ := .mergeSorted _
      exact page.perm
    have rearranged := pagewise (List.range' 1 (kept.length ⌈/⌉ size))
    rw [List.flatMap_def, List.flatMap_def, flatten_stretches_eq sizes.1] at rearranged
    exact rearranged.trans whole.perm.symm

/-- The pages of an unsorted query are consecutive stretches of its result without pages; those
of a sorted query are each sorted, and together they are its result up to the order. -/
theorem pages_of_all {size : Nat} {items : List β}
    (countable : query.source.length ≤ Paging.greatestCount)
    (sizes : size ∈ Set.Icc 1 Paging.greatestCount)
    (unpaged : query.elements? projection none = some items) :
    (query.stage.sorting = .unsorted → query.Partitions projection size items) ∧
      ∀ ordering, query.stage.sorting.ordering? = some ordering → Std.TransCmp ordering →
        query.stage.sorting.IsLawful → query.Distributes projection size ordering items := by
  obtain ⟨kept, keptCountable, sorted, pages⟩ := exists_kept countable unpaged
  constructor
  · intro unsorted
    rw [unsorted] at sorted pages
    obtain rfl : kept = items := Except.ok.inj sorted
    exact partitions_of_stretches keptCountable sizes pages
  · intro ordering sorts transitive lawful
    have result := Sorting.result_apply_of_sorts lawful sorts
    rw [result] at sorted
    obtain rfl : mergeSorted ordering kept = items := Except.ok.inj sorted
    refine distributes_of_stretches keptCountable sizes fun number numbers => ?_
    rw [pages size number sizes numbers, result]
    rfl

/-- Pages of two numbers: of an unsorted query without duplicates, and of a sorted one. -/
theorem pages_of_all_of_numbers :
    let source : List Value := [.int 3, .int 1, .int 3, .int 2]
    let unsorted : Query Value := ⟨source, .acceptAll, some 9, .special .unsorted .distinct⟩
    let sorted : Query Value := ⟨source, .acceptAll, none, .ordered⟩
    unsorted.Partitions (.plain rfl) 2 [.int 3, .int 1, .int 2] ∧
      ∃ items, sorted.elements? (.plain rfl) none = some items ∧
        sorted.Distributes (.plain rfl) 2 compare items := by
  intro source unsorted sorted
  have sizes : 2 ∈ Set.Icc 1 Paging.greatestCount := ⟨by decide, by decide⟩
  have countable : source.length ≤ Paging.greatestCount := by decide
  constructor
  · have unpaged : unsorted.elements? (.plain rfl) none = some [.int 3, .int 1, .int 2] := rfl
    exact (pages_of_all countable sizes unpaged).1 rfl
  · have unpaged : sorted.elements? (.plain rfl) none = some (mergeSorted compare source) := rfl
    refine ⟨_, unpaged, (pages_of_all countable sizes unpaged).2 compare rfl inferInstance ?_⟩
    exact fun comparator isComparator => nomatch isComparator

end Query

end StagedQuery
