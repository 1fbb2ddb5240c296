/-
This file defines pages: which one of the equally long stretches of a list a
caller wants to see.

Page numbers and page sizes are machine words that are at least one. A page is
described in two steps, the number first and the size second, and the number is
also checked first. The elements in front of a page are counted without
wrapping around: where the count would leave the range of a word, it stays at
the greatest word, which is past the end of every list that fits in memory.
-/

import StagedQuery.Text.Description

namespace StagedQuery

/-! ### What can be wrong with a page -/

/-- Why a page number and a page size describe no page. -/
inductive PagingError where
  | invalidPage (page : UInt64)
  | invalidPageSize (perPage : UInt64)
  deriving DecidableEq

namespace PagingError

/-- The short name of the error. -/
def name : PagingError → String
  | .invalidPage _ => "InvalidPage"
  | .invalidPageSize _ => "InvalidPageSize"

/-- What the error tells a reader. -/
def message : PagingError → String
  | .invalidPage page =>
    "invalid page " ++ toString page.toNat ++ ": pages are counted from 1"
  | .invalidPageSize perPage =>
    "invalid page size " ++ toString perPage.toNat ++
      ": a page must hold at least one element"

/-- What the error shows of itself. -/
def describe : PagingError → Text.Description
  | error@(.invalidPage page) => .record error.name [("page", .ofNat page.toNat)] false
  | error@(.invalidPageSize perPage) =>
    .record error.name [("per_page", .ofNat perPage.toNat)] false

end PagingError

/-! ### Pages -/

/-- A page: its number, counted from one, and how many elements it holds. -/
structure Paging where
  page : UInt64
  perPage : UInt64
  page_pos : 0 < page.toNat
  perPage_pos : 0 < perPage.toNat
  deriving DecidableEq

namespace Paging

/-- Pages are ordered by number, then by size. -/
instance : Ord Paging where
  compare left right := (compare left.page right.page).then (compare left.perPage right.perPage)

/-- The page with a number and a size, if both are at least one. -/
def of? (page perPage : UInt64) : Except PagingError Paging :=
  if page_pos : 0 < page.toNat then
    if perPage_pos : 0 < perPage.toNat then .ok ⟨page, perPage, page_pos, perPage_pos⟩
    else .error (.invalidPageSize perPage)
  else .error (.invalidPage page)

/-- The greatest number of elements that can be counted. -/
def greatestCount : Nat := UInt64.size - 1

/-- Multiplies two words. A product that is out of range stays at the greatest word. -/
def saturatingMul (left right : UInt64) : UInt64 :=
  if left.toNat * right.toNat ≤ greatestCount then left * right else .ofNat greatestCount

theorem toNat_saturatingMul (left right : UInt64) :
    (saturatingMul left right).toNat = min (left.toNat * right.toNat) greatestCount := by
  unfold saturatingMul
  by_cases inRange : left.toNat * right.toNat ≤ greatestCount
  · rw [if_pos inRange, Nat.min_eq_left inRange, UInt64.toNat_mul]
    exact Nat.mod_eq_of_lt (Nat.lt_of_le_of_lt inRange (by decide))
  · rw [if_neg inRange, Nat.min_eq_right (Nat.le_of_not_le inRange)]
    rfl

/-- How many elements come before the page, counted in words. -/
def offset (paging : Paging) : Nat := (saturatingMul (paging.page - 1) paging.perPage).toNat

/-- No page has the number zero, so that the pages before it are counted without wrapping around. -/
theorem toNat_page_sub_one (paging : Paging) :
    (paging.page - 1).toNat = paging.page.toNat - 1 :=
  UInt64.toNat_sub_of_le _ _ (UInt64.le_iff_toNat_le.mpr paging.page_pos)

/-- In numbers without bounds, the offset is the count of the elements before the page, or else the
greatest word. -/
theorem offset_eq (paging : Paging) :
    paging.offset = min ((paging.page.toNat - 1) * paging.perPage.toNat) greatestCount := by
  rw [offset, toNat_saturatingMul, toNat_page_sub_one]

/-- The elements of a list that are on the page. -/
def slice {α : Type} (paging : Paging) (items : List α) : List α :=
  (items.drop paging.offset).take paging.perPage.toNat

/-- A page holds what is left after its offset, up to its size. -/
theorem length_slice {α : Type} (paging : Paging) (items : List α) :
    (paging.slice items).length = min paging.perPage.toNat (items.length - paging.offset) := by
  rw [slice, List.length_take, List.length_drop]

/-- What a page shows of itself. -/
def describe (paging : Paging) : Text.Description :=
  .record "Paging"
    [("page", .ofNat paging.page.toNat), ("per_page", .ofNat paging.perPage.toNat)] false

theorem of?_self (paging : Paging) : of? paging.page paging.perPage = .ok paging := by
  rw [of?, dif_pos paging.page_pos, dif_pos paging.perPage_pos]

/-- A page is made of two counts only if it has them. -/
theorem of?_eq_ok_iff {page perPage : UInt64} {paging : Paging} :
    of? page perPage = .ok paging ↔ paging.page = page ∧ paging.perPage = perPage := by
  constructor
  · intro made
    unfold of? at made
    split at made
    · split at made
      · obtain rfl := Except.ok.inj made
        exact ⟨rfl, rfl⟩
      · nomatch made
    · nomatch made
  · rintro ⟨rfl, rfl⟩
    exact of?_self paging

/-- The number is checked first. -/
theorem of?_zero (perPage : UInt64) : of? 0 perPage = .error (.invalidPage 0) := dif_neg (by decide)

theorem of?_of_zero_perPage {page : UInt64} (page_pos : 0 < page.toNat) :
    of? page 0 = .error (.invalidPageSize 0) := by
  rw [of?, dif_pos page_pos, dif_neg (by decide)]

end Paging

/-! ### Pages in two steps -/

/-- A page number that still lacks a page size; it is not checked yet. -/
structure PageNumber where
  number : UInt64

namespace PageNumber

/-- The page with this number among pages of a size. -/
def eachContaining (page : PageNumber) (perPage : UInt64) : Except PagingError Paging :=
  Paging.of? page.number perPage

/-- What a page number shows of itself. -/
def describe (page : PageNumber) : Text.Description :=
  .record "OngoingPaging" [("page", .ofNat page.number.toNat)] false

end PageNumber

end StagedQuery
