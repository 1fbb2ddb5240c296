/-
This file proves that it makes no difference in which way a page is made of its number and
its size, and that a page that was written is read back.

All ways lead to the same check. From a document only one count for each field gets
there, in whichever order a mapping has its entries and whatever else it holds; an object
has sorted its members beforehand, which loses none of them as long as no two have the
same name. A page that has passed the check has a number from which one can be taken
away, and the check does not refuse it when it is read again.
-/

import StagedQuery.Proofs.Document.Entries

namespace StagedQuery

/-! ### Objects -/

namespace Document

/-- A member with a new name is entered among the others. -/
theorem perm_enter {name : String} {entries : List Entry} (new : name ∉ entries.map Prod.fst)
    (content : Document) : (enter name content entries).Perm ((name, content) :: entries) := by
  induction entries with
  | nil => exact .refl _
  | cons entry rest inductionHypothesis =>
    obtain ⟨other, present⟩ := entry
    rw [List.map_cons, List.mem_cons, not_or] at new
    rw [enter]
    cases place : compare name other with
    | lt => exact .refl _
    | eq => exact absurd (Std.compare_eq_iff_eq.mp place) new.1
    | gt => exact ((inductionHypothesis new.2).cons _).trans (.swap ..)

/-- The members of an object are entries, if no two of them have the same name. -/
theorem exists_object_eq {members : List Entry} (different : (members.map Prod.fst).Nodup) :
    ∃ entries : List Entry, object members = .mapping entries ∧ entries.Perm members := by
  refine ⟨_, rfl, ?_⟩
  induction members using List.reverseRecOn with
  | nil => exact .refl _
  | append_singleton front last inductionHypothesis =>
    rw [List.map_append, List.nodup_append] at different
    have entered := inductionHypothesis different.1
    have new : last.1 ∉ (front.foldl (fun entries member => enter member.1 member.2 entries)
        []).map Prod.fst := by
      rw [(entered.map Prod.fst).mem_iff]
      exact fun member => different.2.2 _ member _ (by simp) rfl
    rw [List.foldl_append, List.foldl_cons, List.foldl_nil]
    have inFront := (perm_enter new last.2).trans (entered.cons last)
    exact inFront.trans (List.perm_append_singleton ..).symm

end Document

/-- Entries in another order have the same contents for a field, if there is only one. -/
theorem PagingField.contents_of_perm {field : PagingField} {entries members : List Entry}
    (rearranged : entries.Perm members) {content : Document}
    (only : field.contents members = [content]) : field.contents entries = [content] := by
  have contents : (field.contents entries).Perm (field.contents members) :=
    (rearranged.filter _).map _
  rw [only] at contents
  exact List.perm_singleton.mp contents

/-! ### Ways to make a page -/

namespace Paging

/-- What all ways to make a page of a number and a size come to. A mapping may hold other entries
besides the two; a document tells the same problem with the two counts. -/
structure MadeAlike (page perPage : UInt64) (outcome : Except PagingError Paging) : Prop where
  inOneStep : of? page perPage = outcome
  inTwoSteps : (PageNumber.mk page).eachContaining perPage = outcome
  ofMapping : ∀ entries, PagingField.page.contents entries = [.natural page] →
    PagingField.perPage.contents entries = [.natural perPage] →
      decode (.mapping entries) = outcome.mapError .invalidPaging
  ofObject : ∀ members : List Entry, (members.map Prod.fst).Nodup →
    PagingField.page.contents members = [.natural page] →
    PagingField.perPage.contents members = [.natural perPage] →
      decode (.object members) = outcome.mapError .invalidPaging
  ofSequence : decode (.sequence [.natural page, .natural perPage]) =
    outcome.mapError .invalidPaging
  ok_iff : ∀ paging, outcome = .ok paging ↔ paging.page = page ∧ paging.perPage = perPage
  exists_ok_iff : (∃ paging, outcome = .ok paging) ↔ 1 ≤ page.toNat ∧ 1 ≤ perPage.toNat
  invalidPage_iff : ∀ number, outcome = .error (.invalidPage number) ↔ number = page ∧ page = 0
  invalidPageSize_iff : ∀ size, outcome = .error (.invalidPageSize size) ↔
    size = perPage ∧ 1 ≤ page.toNat ∧ perPage = 0

/-- A page that was made is well made: it has a number from which one can be taken away, so that its
offset counts the elements before it, holds at least one element, and is read back when it was
written. -/
structure WellMade (paging : Paging) : Prop where
  page_pos : 1 ≤ paging.page.toNat
  perPage_pos : 1 ≤ paging.perPage.toNat
  page_sub_one : (paging.page - 1).toNat + 1 = paging.page.toNat
  exists_offset_eq : ∃ before, before + 1 = paging.page.toNat ∧
    paging.offset = min (before * paging.perPage.toNat) greatestCount
  decode_encode : decode paging.encode = .ok paging

theorem exists_of?_ok_iff {page perPage : UInt64} :
    (∃ paging, of? page perPage = .ok paging) ↔ 1 ≤ page.toNat ∧ 1 ≤ perPage.toNat := by
  constructor
  · rintro ⟨paging, made⟩
    obtain ⟨rfl, rfl⟩ := of?_eq_ok_iff.mp made
    exact ⟨paging.page_pos, paging.perPage_pos⟩
  · rintro ⟨page_pos, perPage_pos⟩
    let paging : Paging := ⟨page, perPage, page_pos, perPage_pos⟩
    exact ⟨paging, paging.of?_self⟩

theorem toNat_pos_iff {count : UInt64} : 0 < count.toNat ↔ count ≠ 0 := by
  rw [Nat.pos_iff_ne_zero, ne_eq, ne_eq, ← UInt64.toNat_inj]
  rfl

theorem of?_eq_invalidPage_iff {page perPage number : UInt64} :
    of? page perPage = .error (.invalidPage number) ↔ number = page ∧ page = 0 := by
  unfold of?
  split
  · rename_i page_pos
    rw [toNat_pos_iff] at page_pos
    split <;> simp [page_pos]
  · rename_i zero
    rw [toNat_pos_iff, not_not] at zero
    simp [zero, eq_comm]

/-- The size is only checked where the number is good. -/
theorem of?_eq_invalidPageSize_iff {page perPage size : UInt64} :
    of? page perPage = .error (.invalidPageSize size) ↔
      size = perPage ∧ 1 ≤ page.toNat ∧ perPage = 0 := by
  unfold of?
  split
  · rename_i page_pos
    split
    · rename_i perPage_pos
      rw [toNat_pos_iff] at perPage_pos
      simp [perPage_pos]
    · rename_i zero
      rw [toNat_pos_iff, not_not] at zero
      simp [zero, eq_comm, Nat.succ_le_of_lt page_pos]
  · rename_i zero
    exact iff_of_false (by simp) fun sizes => zero sizes.2.1

/-- The check is what all ways come to. -/
theorem madeAlike_of? (page perPage : UInt64) : MadeAlike page perPage (of? page perPage) where
  inOneStep := rfl
  inTwoSteps := rfl
  ofMapping _ pageContents perPageContents := decodeEntries_of_contents pageContents perPageContents
  ofObject members different pageContents perPageContents := by
    obtain ⟨entries, isObject, rearranged⟩ := Document.exists_object_eq different
    rw [isObject]
    exact decodeEntries_of_contents (PagingField.contents_of_perm rearranged pageContents)
      (PagingField.contents_of_perm rearranged perPageContents)
  ofSequence := rfl
  ok_iff _ := of?_eq_ok_iff
  exists_ok_iff := exists_of?_ok_iff
  invalidPage_iff _ := of?_eq_invalidPage_iff
  invalidPageSize_iff _ := of?_eq_invalidPageSize_iff

theorem wellMade (paging : Paging) : paging.WellMade where
  page_pos := paging.page_pos
  perPage_pos := paging.perPage_pos
  page_sub_one := by rw [toNat_page_sub_one, Nat.sub_add_cancel paging.page_pos]
  exists_offset_eq := ⟨_, Nat.sub_add_cancel paging.page_pos, paging.offset_eq⟩
  decode_encode := paging.decode_encode

/-- However a page is made of a number and a size, the same problem is found with them, or else the
same page is made. All pages are well made, those that were read from any document included, and
writing a page that was read and reading it again changes nothing. -/
theorem constructions_agree :
    (∀ page perPage, ∃ outcome, MadeAlike page perPage outcome) ∧
      (∀ paging, WellMade paging) ∧
      ∀ document, (decode document >>= fun paging => decode paging.encode) = decode document := by
  refine ⟨fun page perPage => ⟨_, madeAlike_of? page perPage⟩, wellMade, fun document => ?_⟩
  cases decode document with
  | error error => rfl
  | ok paging => exact paging.decode_encode

end Paging

end StagedQuery
