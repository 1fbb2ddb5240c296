/-
This file proves that pages are cut exactly, although what stands in front of a page
is counted in words.

Two things could go wrong with words. The number of the page before could wrap around,
but no page has the number zero. And the count of the elements in front could be out of
range; it then stays at the greatest word, which no list that can be counted reaches, so
that the page is empty as it has to be. The end of a page is never computed. It can be
out of range where the start is not, and is here a number without bounds.
-/

import StagedQuery.Proofs.Lists.Positions
import StagedQuery.Proofs.Paging.Slices

namespace StagedQuery

variable {α : Type}

/-- A stretch is what stands between two multiples of its size. -/
theorem stretch_eq_atPositions {size number : Nat} (number_pos : 0 < number) (items : List α) :
    stretch size number items = atPositions items fun position =>
      (number - 1) * size ≤ position && position < min items.length (number * size) := by
  obtain ⟨earlier, rfl⟩ := Nat.exists_eq_add_of_le' number_pos
  rw [stretch, take_drop_eq_atPositions, Nat.add_sub_cancel]
  refine atPositions_congr fun position inside => ?_
  have sameEnd : position < min items.length ((earlier + 1) * size) ↔
      position < earlier * size + size := by
    rw [Nat.lt_min, Nat.succ_mul, and_iff_right inside]
  simp only [sameEnd]

namespace Paging

/-- What a page shows of a list, told in numbers without bounds: the elements between two
multiples of the page size. The number of the page before does not wrap around, and the offset is
the first of these multiples wherever that is a word. -/
structure CutsExactly (paging : Paging) (items shown : List α) : Prop where
  page_sub_one : (paging.page - 1).toNat + 1 = paging.page.toNat
  offset_eq_min : paging.offset = min ((paging.page.toNat - 1) * paging.perPage.toNat) (2 ^ 64 - 1)
  shown_eq : shown = atPositions items fun position =>
    (paging.page.toNat - 1) * paging.perPage.toNat ≤ position &&
      position < min items.length (paging.page.toNat * paging.perPage.toNat)
  eq_nil_of_lt : 2 ^ 64 - 1 < (paging.page.toNat - 1) * paging.perPage.toNat → shown = []
  length_eq : shown.length = min paging.perPage.toNat
    (items.length - min items.length ((paging.page.toNat - 1) * paging.perPage.toNat))

/-- On a list that can be counted, every page is cut exactly. -/
theorem slice_cuts_exactly {items : List α} (countable : items.length ≤ 2 ^ 64 - 1)
    (paging : Paging) : paging.CutsExactly items (paging.slice items) := by
  have stretched := paging.slice_eq_stretch countable
  constructor
  case page_sub_one => rw [toNat_page_sub_one, Nat.sub_add_cancel paging.page_pos]
  case offset_eq_min => exact paging.offset_eq
  case shown_eq => rw [stretched, stretch_eq_atPositions paging.page_pos]
  case eq_nil_of_lt =>
    intro outOfRange
    rw [stretched, stretch_eq_nil (Nat.le_trans countable (Nat.le_of_lt outOfRange))]
  case length_eq =>
    rw [stretched, length_stretch]
    omega

/-- The offset of the first page is the greatest word; one element further, that of the second is
out of range and stays there. -/
theorem slice_cuts_exactly_of_greatest_word :
    let items : List Value := [.int 1, .int 2, .int 3]
    let greatest : Paging := ⟨6148914691236517206, 3, by decide, by decide⟩
    let outOfRange : Paging := ⟨9223372036854775809, 2, by decide, by decide⟩
    items.length ≤ 2 ^ 64 - 1 ∧
      greatest.offset = 2 ^ 64 - 1 ∧ greatest.CutsExactly items (greatest.slice items) ∧
      outOfRange.offset = 2 ^ 64 - 1 ∧ outOfRange.slice items = [] := by
  intro items greatest outOfRange
  have countable : items.length ≤ 2 ^ 64 - 1 := by decide
  have cut := slice_cuts_exactly countable outOfRange
  refine ⟨countable, ?_, slice_cuts_exactly countable greatest, ?_, cut.eq_nil_of_lt (by decide)⟩
  · exact greatest.offset_eq.trans (by decide)
  · exact cut.offset_eq_min.trans (by decide)

end Paging

end StagedQuery
