/-
This file compares a limit with a first page of the same size.

A limit cuts the accepted elements off, a page cuts off what is left of their images
without duplicates, and both do so before anything is sorted. Without a call on duplicates
the two are therefore the same, sorted or not. With one, the limit has spent its room on
duplicates that the page does not count, so its elements are the first of those on the
page; and there are as many of them only if no room was spent so, or if no image was left
to fill the page with.
-/

import StagedQuery.Proofs.Run.Limits
import StagedQuery.Proofs.Run.Ordering

namespace StagedQuery

variable {α β : Type}

/-! ### First pages -/

/-- The first page shows the beginning of a list. -/
theorem Paging.slice_of_first {paging : Paging} (isFirst : paging.page = 1) (items : List α) :
    paging.slice items = items.take paging.perPage.toNat := by
  have front : paging.offset = 0 := by
    rw [offset_eq, isFirst]
    exact (congrArg (min · greatestCount) (Nat.zero_mul _)).trans (Nat.zero_min _)
  rw [slice, front, List.drop_zero]

/-! ### First images -/

/-- The images of the first accepted elements. -/
def Phase.firstImages (phase : Phase α β) (count : Nat) : List β :=
  phase.mapper.images 0 (phase.accepted.take count)

/-! ### Limits and first pages -/

namespace Query

variable {query : Query α β}

/-- Under a limit, the images are the first of those without a limit. -/
theorem images_withLimit (unlimited : query.limit = none) (count : UInt64) (mapper : Mapper α β) :
    ((query.withLimit (some count)).phase mapper).images =
      (query.phase mapper).firstImages count.toNat := by
  have all : (query.phase mapper).accepted = query.source.filter query.predicate.accepts :=
    Phase.accepted_of_unlimited unlimited
  rw [Phase.firstImages, all]
  rfl

/-- If gathering succeeds without a limit, it succeeds under every limit, with the first images. -/
theorem projected_withLimit (unlimited : query.limit = none) (count : UInt64) {mapper : Mapper α β}
    {images : List β} (gathered : (query.projected mapper).result = .ok images) :
    ((query.withLimit (some count)).projected mapper).result =
      .ok (images.take count.toNat) := by
  have length : query.room = query.source.length := by
    rw [room, unlimited]
  have roomy : query.projected mapper =
      gather query.predicate mapper (max count.toNat query.source.length) 0 query.source := by
    rw [projected, length]
    exact gather_congr_room (.inl (Nat.le_refl _)) (.inl (Nat.le_max_right _ _)) mapper 0
  have precedes := gather_precedes query.predicate mapper
    (Nat.le_max_left count.toNat query.source.length) 0 query.source
  rw [roomy] at gathered
  obtain ⟨front, reached, isFront⟩ := precedes.exists_ok images gathered
  have few : front.length = min count.toNat images.length := by
    rw [Phase.length_of_gathered reached, Phase.length_of_gathered gathered]
    have inside : query.source.countP query.predicate.accepts ≤ query.source.length :=
      List.countP_le_length
    omega
  rw [List.prefix_iff_eq_take.mp isFront, few, ← List.take_eq_take_min] at reached
  exact reached

theorem firstImages_eq_take (unlimited : query.limit = none) (count : UInt64) {mapper : Mapper α β}
    {images : List β} (gathered : (query.projected mapper).result = .ok images) :
    (query.phase mapper).firstImages count.toNat = images.take count.toNat := by
  rw [← images_withLimit unlimited]
  exact (Phase.images_of_projected (projected_withLimit unlimited count gathered)).symm

variable [BEq β] [Ord β]

/-- A query that sorts lawfully gives what remains, sorted. -/
theorem elements?_of_lawful (lawful : query.stage.sorting.IsLawful) {projection : Projection α β}
    {paging : Option Paging} (offered : query.stage.offers ⟨projection, paging.elim .all .page⟩)
    {images : List β}
    (gathered : (query.projected projection.mapper).result = .ok images) :
    query.elements? projection paging =
      some (query.stage.sorting.arranged (query.remaining paging images)) := by
  rw [elements?_eq offered gathered, Sorting.result_apply lawful]
  rfl

/-- A query that is not limited gives, under a limit, the elements of its first page of that size,
unless it drops duplicates. If it does, and does not sort, it gives the first of them, and gives all
of them if and only if the images that the limit leaves are different or represent all images. -/
theorem limit_compared_with_first_page [EquivBEq β] {projection : Projection α β} {items : List β}
    (unlimited : query.limit = none) (lawful : query.stage.sorting.IsLawful)
    (unpaged : query.elements? projection none = some items) {paging : Paging}
    (isFirst : paging.page = 1) :
    ∃ limited firsts page, query.refine? (.limit paging.perPage) = some limited ∧
      limited.elements? projection none = some firsts ∧
      query.elements? projection (some paging) = some page ∧
      (query.stage.deduplication = .keepAll → firsts = page) ∧
      (query.stage.deduplication = .distinct → query.stage.sorting = .unsorted →
        let phase := query.phase projection.mapper
        let firstImages := phase.firstImages paging.perPage.toNat
        firsts <+: page ∧
          (firsts = page ↔
            (firstImages.Pairwise fun earlier later => (earlier == later) = false) ∨
              ∀ image ∈ phase.images, ∃ representative ∈ firstImages,
                image == representative)) := by
  obtain ⟨images, gathered⟩ := exists_gathered_of_elements? unpaged
  obtain rfl := Phase.images_of_projected gathered
  obtain ⟨limited, refined, same⟩ := query.exists_refine?_limit paging.perPage
  let phase := query.phase projection.mapper
  have firsts := firstImages_eq_take unlimited paging.perPage gathered
  have limitedGiven : limited.elements? projection none =
      some (query.stage.sorting.arranged
        (query.stage.deduplication.apply (phase.images.take paging.perPage.toNat))) := by
    unfold elements?
    rw [same]
    exact @elements?_of_lawful α β (query.withLimit (some paging.perPage)) _ _ lawful projection
      none (offers_of_elements? unpaged _) _
      (projected_withLimit unlimited paging.perPage gathered)
  have pageGiven : query.elements? projection (some paging) =
      some (query.stage.sorting.arranged
        ((query.stage.deduplication.apply phase.images).take paging.perPage.toNat)) := by
    rw [← paging.slice_of_first isFirst]
    exact @elements?_of_lawful α β query _ _ lawful projection (some paging)
      (offers_of_elements? unpaged _) _ gathered
  refine ⟨limited, _, _, refined, limitedGiven, pageGiven, fun keeps => ?_,
    fun drops unsorted => ?_⟩
  · rw [keeps, Deduplication.apply_keepAll, Deduplication.apply_keepAll]
  · rw [drops, unsorted, Deduplication.apply_distinct, Deduplication.apply_distinct]
    dsimp only
    rw [firsts]
    exact ⟨prefix_eraseDups_take _ _, eraseDups_take_eq_iff _ _⟩

/-- The first two numbers are equal. Sorted, the limit and the page leave both; without duplicates,
the limit leaves one number where the page has two. -/
theorem limit_compared_with_first_page_of_equal_numbers :
    let source : List Value := [.int 2, .int 2, .int 1, .int 3]
    let paging : Paging := ⟨1, 2, by decide, by decide⟩
    let comparator : Comparator Value := (Comparator.byKey fun element => pure element).reversed
    let sorted : Query Value := ⟨source, .acceptAll, none, .orderedBy comparator⟩
    let distinct : Query Value := ⟨source, .acceptAll, none, .special .unsorted .distinct⟩
    (∃ limited firsts, sorted.refine? (.limit 2) = some limited ∧
        limited.elements? (.mapped .identity) none = some firsts ∧
        sorted.elements? (.mapped .identity) (some paging) = some firsts) ∧
      ∃ limited, distinct.refine? (.limit 2) = some limited ∧
        limited.elements? (.plain rfl) none = some [.int 2] ∧
        distinct.elements? (.plain rfl) (some paging) = some [.int 2, .int 1] ∧
        ¬((distinct.phase Mapper.identity).firstImages 2).Pairwise
            fun earlier later => (earlier == later) = false := by
  intro source paging comparator sorted distinct
  constructor
  · have lawful : sorted.stage.sorting.IsLawful := by
      rintro _ ⟨⟩
      exact (Comparator.isTotalPreorder_byKey fun _ => rfl).reversed
    have unpaged : sorted.elements? (.mapped .identity) none =
        some [.int 3, .int 2, .int 2, .int 1] := rfl
    obtain ⟨limited, firsts, page, refined, limitedGiven, pageGiven, same, _⟩ :=
      @limit_compared_with_first_page Value Value _ _ _ _ _ _ rfl lawful unpaged paging rfl
    obtain rfl := same rfl
    exact ⟨limited, firsts, refined, limitedGiven, pageGiven⟩
  · have lawful : distinct.stage.sorting.IsLawful := fun _ same => nomatch same
    have unpaged : distinct.elements? (.plain rfl) none = some [.int 2, .int 1, .int 3] := rfl
    obtain ⟨limited, firsts, page, refined, limitedGiven, pageGiven, _, compared⟩ :=
      @limit_compared_with_first_page Value Value _ _ _ _ _ _ rfl lawful unpaged paging rfl
    obtain ⟨_, same⟩ := compared rfl rfl
    have pageFound : distinct.elements? (.plain rfl) (some paging) = some [.int 2, .int 1] := by
      have cut : distinct.remaining (some paging) source = [.int 2, .int 1] :=
        paging.slice_of_first rfl _
      have gathered : (distinct.projected Mapper.identity).result = .ok source := rfl
      rw [elements?_of_unsorted rfl gathered, cut]
    have firstsFound : limited.elements? (.plain rfl) none = some [.int 2] := by
      obtain rfl := Option.some.inj refined
      rfl
    obtain rfl : firsts = _ := Option.some.inj (limitedGiven.symm.trans firstsFound)
    obtain rfl : page = _ := Option.some.inj (pageGiven.symm.trans pageFound)
    refine ⟨limited, refined, firstsFound, pageFound, fun different => ?_⟩
    nomatch same.mpr (.inl different)

end Query

end StagedQuery
