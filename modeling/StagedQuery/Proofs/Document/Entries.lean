/-
This file proves what reading a page from the entries of a mapping comes to, and which of
several problems is the one that is reported.

Whether something is wrong with an entry can be told from the entry and from the names in
front of it: a field comes again, or its content is no count. The scan has less in hand,
at most one count for each field. As long as nothing was wrong, these counts are all that
the entries have told about the fields, and then the scan stops at an entry exactly if
something is wrong with it. What follows the scan only depends on what it has in hand at
the end, and therefore not on the order of the entries. A sequence of two items is read as
entries would be; the length of any other is noticed before the page is checked.
-/

import Mathlib.Data.List.Induction
import StagedQuery.Document.Decoding

namespace StagedQuery

/-! ### Entries -/

/-- An entry of a mapping. -/
abbrev Entry := String × Document

namespace PagingField

theorem ofName?_eq_some_iff {name : String} {field : PagingField} :
    ofName? name = some field ↔ name = field.name := by
  constructor
  · intro known
    unfold ofName? at known
    split at known
    · obtain rfl := Option.some.inj known
      rfl
    · obtain rfl := Option.some.inj known
      rfl
    · nomatch known
  · rintro rfl
    exact ofName?_name field

theorem name_injective {first second : PagingField} (same : first.name = second.name) :
    first = second :=
  Option.some.inj ((ofName?_name first).symm.trans (ofName?_eq_some_iff.mpr same))

/-- The contents of the entries for a field, in order. -/
def contents (field : PagingField) (entries : List Entry) : List Document :=
  (entries.filter fun entry => entry.1 == field.name).map Prod.snd

variable {field : PagingField}

theorem contents_append (front back : List Entry) :
    field.contents (front ++ back) = field.contents front ++ field.contents back := by
  rw [contents, List.filter_append, List.map_append]
  rfl

theorem contents_self (content : Document) :
    field.contents [(field.name, content)] = [content] := by
  rw [contents, List.filter_cons_of_pos (by simp)]
  rfl

theorem contents_of_ne {name : String} (different : name ≠ field.name) (content : Document) :
    field.contents [(name, content)] = [] := by
  rw [contents, List.filter_cons_of_neg (by simpa using different)]
  rfl

/-- There are no contents for a field that is not named. -/
theorem contents_eq_nil_iff {entries : List Entry} :
    field.contents entries = [] ↔ field.name ∉ entries.map Prod.fst := by
  simp only [contents, List.map_eq_nil_iff, List.filter_eq_nil_iff, beq_iff_eq, List.mem_map,
    not_exists, not_and]

end PagingField

/-! ### Problems -/

/-- A document is a count if it is a natural number in the range of words. -/
theorem Document.count?_eq_ok_iff {content : Document} {count : UInt64} :
    content.count? = .ok count ↔ content = .natural count := by
  cases content <;> simp [count?]

/-- What is wrong with a document that is no count. A whole number below zero has the wrong value;
anything else but a natural number is of the wrong kind. -/
inductive Document.NotCount : Document → DecodingError → Prop where
  | wrongValue (number : Int) :
    NotCount (.negative number) (.wrongValue (.negative number) .count)
  | wrongKind {content : Document} (notNatural : ∀ number, content ≠ .natural number)
    (notNegative : ∀ number, content ≠ .negative number) :
    NotCount content (.wrongKind content .count)

theorem Document.count?_eq_error_iff {content : Document} {error : DecodingError} :
    content.count? = .error error ↔ content.NotCount error := by
  constructor
  · intro refused
    cases content with
    | natural number => nomatch refused
    | negative number =>
      obtain rfl := Except.error.inj refused
      exact .wrongValue number
    | _ =>
      obtain rfl := Except.error.inj refused
      exact .wrongKind (fun _ => nofun) fun _ => nofun
  · intro refused
    cases refused with
    | wrongValue number => rfl
    | wrongKind notNatural notNegative =>
      cases content with
      | natural number => exact absurd rfl (notNatural number)
      | negative number => exact absurd rfl (notNegative number)
      | _ => rfl

/-- What is wrong with a document as a count has nothing to do with pages. -/
theorem Document.NotCount.ne_invalidPaging {content : Document} {error : DecodingError}
    (refused : content.NotCount error) (problem : PagingError) :
    error ≠ .invalidPaging problem := by
  cases refused <;> nofun

/-- What is wrong with an entry behind others. The content of a field that comes again is not looked
at, and nothing is ever wrong with an entry that is for no field. -/
inductive EntryProblem (front : List Entry) : Entry → DecodingError → Prop where
  | repeated (field : PagingField) (content : Document) (named : field.name ∈ front.map Prod.fst) :
    EntryProblem front (field.name, content) (.duplicateField field)
  | notCount (field : PagingField) {content : Document} {error : DecodingError}
    (new : field.name ∉ front.map Prod.fst) (refused : content.NotCount error) :
    EntryProblem front (field.name, content) error

/-- Entries with none of which anything is wrong. -/
def Unproblematic (entries : List Entry) : Prop :=
  ∀ front entry back, entries = front ++ entry :: back → ∀ error, ¬EntryProblem front entry error

/-- The first problem with entries, from left to right. -/
def FirstProblem (entries : List Entry) (error : DecodingError) : Prop :=
  ∃ front entry back, entries = front ++ entry :: back ∧ Unproblematic front ∧
    EntryProblem front entry error

theorem unproblematic_nil : Unproblematic [] := by
  intro front entry back split
  exact absurd split.symm (by simp)

theorem unproblematic_concat_iff {front : List Entry} {entry : Entry} :
    Unproblematic (front ++ [entry]) ↔
      Unproblematic front ∧ ∀ error, ¬EntryProblem front entry error := by
  constructor
  · intro sound
    refine ⟨fun before other between split => ?_, sound front entry [] rfl⟩
    refine sound before other (between ++ [entry]) ?_
    rw [split, List.append_assoc, List.cons_append]
  · rintro ⟨frontSound, entrySound⟩ before other between split
    cases between using List.reverseRecOn with
    | nil =>
      obtain ⟨rfl, same⟩ := List.append_inj' split rfl
      obtain rfl := (List.cons.inj same).1
      exact entrySound
    | append_singleton between last =>
      rw [← List.cons_append, ← List.append_assoc] at split
      exact frontSound before other between (List.append_inj' split rfl).1

/-- Either nothing is wrong with entries or there is a first problem. -/
theorem unproblematic_or_exists_firstProblem (entries : List Entry) :
    Unproblematic entries ∨ ∃ error, FirstProblem entries error := by
  induction entries using List.reverseRecOn with
  | nil => exact .inl unproblematic_nil
  | append_singleton front entry inductionHypothesis =>
    rcases inductionHypothesis with sound | ⟨error, before, other, between, rfl, problem⟩
    · by_cases problematic : ∃ error, EntryProblem front entry error
      · obtain ⟨error, problem⟩ := problematic
        exact .inr ⟨error, front, entry, [], rfl, sound, problem⟩
      · exact .inl (unproblematic_concat_iff.mpr ⟨sound, not_exists.mp problematic⟩)
    · refine .inr ⟨error, before, other, between ++ [entry], ?_, problem⟩
      rw [List.append_assoc, List.cons_append]

/-! ### The scan -/

namespace PagingFields

theorem get_set_self (fields : PagingFields) (field : PagingField) (count : UInt64) :
    (fields.set field count).get field = some count := by
  cases field <;> rfl

theorem get_set_of_ne (fields : PagingFields) {field other : PagingField}
    (different : other ≠ field) (count : UInt64) :
    (fields.set field count).get other = fields.get other := by
  cases field <;> cases other <;> first | rfl | exact absurd rfl different

/-- Whether the counts that were read are all that entries tell about the fields. -/
def Holds (fields : PagingFields) (entries : List Entry) : Prop :=
  ∀ field, PagingField.contents field entries = ((fields.get field).map Document.natural).toList

theorem holds_empty : empty.Holds [] := by
  intro field
  cases field <;> rfl

variable {fields : PagingFields} {front : List Entry}

theorem Holds.get_eq_none_iff (holds : fields.Holds front) {field : PagingField} :
    fields.get field = none ↔ field.name ∉ front.map Prod.fst := by
  rw [← PagingField.contents_eq_nil_iff, holds field]
  cases fields.get field <;> simp

theorem readAll_cons_name (fields : PagingFields) (field : PagingField) (content : Document)
    (rest : List Entry) :
    fields.readAll ((field.name, content) :: rest) =
      (fields.read field content >>= fun read => read.readAll rest) := by
  rw [readAll, PagingField.ofName?_name]

theorem readAll_cons_of_unknown {name : String} (unknown : PagingField.ofName? name = none)
    (fields : PagingFields) (content : Document) (rest : List Entry) :
    fields.readAll ((name, content) :: rest) = fields.readAll rest := by
  rw [readAll, unknown]

theorem readAll_append (fields : PagingFields) (front back : List Entry) :
    fields.readAll (front ++ back) = (fields.readAll front >>= fun read => read.readAll back) := by
  induction front generalizing fields with
  | nil => rfl
  | cons entry rest inductionHypothesis =>
    obtain ⟨name, content⟩ := entry
    cases known : PagingField.ofName? name with
    | none =>
      rw [List.cons_append, readAll_cons_of_unknown known, readAll_cons_of_unknown known]
      exact inductionHypothesis fields
    | some field =>
      obtain rfl := PagingField.ofName?_eq_some_iff.mp known
      rw [List.cons_append, readAll_cons_name, readAll_cons_name]
      cases fields.read field content with
      | error error => rfl
      | ok read => exact inductionHypothesis read

theorem read_of_new {field : PagingField} (new : fields.get field = none) (content : Document) :
    fields.read field content = content.count?.map (fields.set field) := by
  rw [read, new]

/-- The scan stops at an entry with which something is wrong, whatever comes behind it. -/
theorem Holds.readAll_of_problem (holds : fields.Holds front) {entry : Entry}
    {error : DecodingError} (problem : EntryProblem front entry error) (back : List Entry) :
    fields.readAll (entry :: back) = .error error := by
  cases problem with
  | repeated field content named =>
    cases told : fields.get field with
    | none => exact absurd named (holds.get_eq_none_iff.mp told)
    | some count =>
      rw [readAll_cons_name, read, told]
      rfl
  | notCount field new refused =>
    rw [readAll_cons_name, read_of_new (holds.get_eq_none_iff.mpr new),
      Document.count?_eq_error_iff.mpr refused]
    rfl

/-- The scan goes on behind an entry with which nothing is wrong. -/
theorem Holds.exists_readAll (holds : fields.Holds front) {entry : Entry}
    (sound : ∀ error, ¬EntryProblem front entry error) :
    ∃ next, fields.readAll [entry] = .ok next ∧ next.Holds (front ++ [entry]) := by
  obtain ⟨name, content⟩ := entry
  cases known : PagingField.ofName? name with
  | none =>
    refine ⟨fields, readAll_cons_of_unknown known fields content [], fun field => ?_⟩
    have different : name ≠ field.name := fun same => by
      rw [PagingField.ofName?_eq_some_iff.mpr same] at known
      nomatch known
    rw [PagingField.contents_append, PagingField.contents_of_ne different, List.append_nil,
      holds field]
  | some field =>
    obtain rfl := PagingField.ofName?_eq_some_iff.mp known
    have new : field.name ∉ front.map Prod.fst := fun named =>
      sound _ (.repeated field content named)
    have untold := holds.get_eq_none_iff.mpr new
    cases counted : content.count? with
    | error error =>
      exact absurd (.notCount field new (Document.count?_eq_error_iff.mp counted)) (sound error)
    | ok count =>
      obtain rfl := Document.count?_eq_ok_iff.mp counted
      refine ⟨fields.set field count, ?_, fun other => ?_⟩
      · rw [readAll_cons_name, read_of_new untold]
        rfl
      · rw [PagingField.contents_append, holds other]
        by_cases same : other = field
        · rw [same, PagingField.contents_self, get_set_self, untold]
          rfl
        · have different : field.name ≠ other.name := fun alike =>
            same (PagingField.name_injective alike).symm
          rw [PagingField.contents_of_ne different, List.append_nil, get_set_of_ne fields same]

/-- Where nothing is wrong, the scan ends and has in hand what the entries tell. -/
theorem exists_readAll_of_unproblematic {entries : List Entry} (sound : Unproblematic entries) :
    ∃ fields, empty.readAll entries = .ok fields ∧ fields.Holds entries := by
  induction entries using List.reverseRecOn with
  | nil => exact ⟨empty, rfl, holds_empty⟩
  | append_singleton front entry inductionHypothesis =>
    obtain ⟨frontSound, entrySound⟩ := unproblematic_concat_iff.mp sound
    obtain ⟨fields, read, holds⟩ := inductionHypothesis frontSound
    obtain ⟨next, readNext, nextHolds⟩ := holds.exists_readAll entrySound
    refine ⟨next, ?_, nextHolds⟩
    rw [readAll_append, read]
    exact readNext

/-- Where something is wrong, the scan reports the first problem. -/
theorem readAll_of_firstProblem {entries : List Entry} {error : DecodingError}
    (first : FirstProblem entries error) : empty.readAll entries = .error error := by
  obtain ⟨front, entry, back, rfl, sound, problem⟩ := first
  obtain ⟨fields, read, holds⟩ := exists_readAll_of_unproblematic sound
  rw [readAll_append, read]
  exact holds.readAll_of_problem problem back

/-! ### What is in hand at the end -/

theorem Holds.require_of_named (holds : fields.Holds front) {field : PagingField}
    (named : field.name ∈ front.map Prod.fst) :
    ∃ count, fields.require field = .ok count ∧ field.contents front = [.natural count] := by
  rw [holds field, require]
  cases told : fields.get field with
  | none => exact absurd named (holds.get_eq_none_iff.mp told)
  | some count => exact ⟨count, rfl, rfl⟩

theorem Holds.require_of_contents (holds : fields.Holds front) {field : PagingField}
    {count : UInt64} (contents : field.contents front = [.natural count]) :
    fields.require field = .ok count := by
  rw [holds field] at contents
  cases told : fields.get field with
  | none =>
    rw [told] at contents
    nomatch contents
  | some other =>
    rw [told] at contents
    obtain rfl := Document.natural.inj (List.cons.inj contents).1
    rw [require, told]

theorem Holds.require_of_missing (holds : fields.Holds front) {field : PagingField}
    (missing : field.name ∉ front.map Prod.fst) :
    fields.require field = .error (.missingField field) := by
  rw [require, holds.get_eq_none_iff.mpr missing]

end PagingFields

/-- Nothing is wrong with entries that have one count for each field. -/
theorem unproblematic_of_contents {entries : List Entry}
    (counts : ∀ field, ∃ count, PagingField.contents field entries = [.natural count]) :
    Unproblematic entries := by
  rintro front ⟨name, content⟩ back rfl error problem
  have contents (field : PagingField) :
      field.contents (front ++ (field.name, content) :: back) =
        field.contents front ++ content :: field.contents back := by
    rw [PagingField.contents_append, ← List.singleton_append, PagingField.contents_append,
      PagingField.contents_self, List.singleton_append]
  cases problem with
  | repeated field _ named =>
    obtain ⟨count, only⟩ := counts field
    rw [contents, List.append_eq_singleton_iff] at only
    rcases only with ⟨none, -⟩ | ⟨-, none⟩
    · exact PagingField.contents_eq_nil_iff.mp none named
    · nomatch none
  | notCount field new refused =>
    obtain ⟨count, only⟩ := counts field
    rw [contents, PagingField.contents_eq_nil_iff.mpr new, List.nil_append] at only
    rw [(List.cons.inj only).1] at refused
    cases refused with
    | wrongKind notNatural _ => exact notNatural count rfl

/-! ### Verdicts -/

namespace Paging

/-- What entries amount to: the first problem with one of them; or else a field that none of them
names, the number before the size; or else a count that no page has, again the number before the
size; or else a page. -/
inductive Verdict (entries : List Entry) : Except DecodingError Paging → Prop where
  | problem {error : DecodingError} (first : FirstProblem entries error) :
    Verdict entries (.error error)
  | missingPage (sound : Unproblematic entries)
    (missing : PagingField.page.name ∉ entries.map Prod.fst) :
    Verdict entries (.error (.missingField .page))
  | missingPerPage (sound : Unproblematic entries)
    (named : PagingField.page.name ∈ entries.map Prod.fst)
    (missing : PagingField.perPage.name ∉ entries.map Prod.fst) :
    Verdict entries (.error (.missingField .perPage))
  | zeroPage (sound : Unproblematic entries)
    (zero : PagingField.page.contents entries = [.natural 0])
    (named : PagingField.perPage.name ∈ entries.map Prod.fst) :
    Verdict entries (.error (.invalidPaging (.invalidPage 0)))
  | zeroPerPage {page : UInt64} (page_pos : 0 < page.toNat)
    (positive : PagingField.page.contents entries = [.natural page])
    (zero : PagingField.perPage.contents entries = [.natural 0]) :
    Verdict entries (.error (.invalidPaging (.invalidPageSize 0)))
  | accepted {paging : Paging}
    (page : PagingField.page.contents entries = [.natural paging.page])
    (perPage : PagingField.perPage.contents entries = [.natural paging.perPage]) :
    Verdict entries (.ok paging)

/-- Behind the scan, only what it has in hand matters. -/
theorem decodeEntries_of_read {entries : List Entry} {fields : PagingFields}
    (read : PagingFields.empty.readAll entries = .ok fields) :
    decodeEntries entries =
      (fields.require .page >>= fun page => fields.require .perPage >>= decodeCounts page) := by
  rw [decodeEntries, read]
  rfl

/-- One count for each field is all that matters, wherever in the mapping the two are. -/
theorem decodeEntries_of_contents {entries : List Entry} {page perPage : UInt64}
    (pageContents : PagingField.page.contents entries = [.natural page])
    (perPageContents : PagingField.perPage.contents entries = [.natural perPage]) :
    decodeEntries entries = decodeCounts page perPage := by
  have sound : Unproblematic entries := unproblematic_of_contents fun field =>
    match field with
    | .page => ⟨page, pageContents⟩
    | .perPage => ⟨perPage, perPageContents⟩
  obtain ⟨fields, read, holds⟩ := PagingFields.exists_readAll_of_unproblematic sound
  rw [decodeEntries_of_read read, holds.require_of_contents pageContents,
    holds.require_of_contents perPageContents]
  rfl

/-- A verdict that entries amount to is the one that reading them comes to. -/
theorem decodeEntries_of_verdict {entries : List Entry} {outcome : Except DecodingError Paging}
    (verdict : Verdict entries outcome) : decodeEntries entries = outcome := by
  cases verdict with
  | problem first =>
    rw [decodeEntries, PagingFields.readAll_of_firstProblem first]
    rfl
  | missingPage sound missing =>
    obtain ⟨fields, read, holds⟩ := PagingFields.exists_readAll_of_unproblematic sound
    rw [decodeEntries_of_read read, holds.require_of_missing missing]
    rfl
  | missingPerPage sound named missing =>
    obtain ⟨fields, read, holds⟩ := PagingFields.exists_readAll_of_unproblematic sound
    obtain ⟨page, required, -⟩ := holds.require_of_named named
    rw [decodeEntries_of_read read, required, holds.require_of_missing missing]
    rfl
  | zeroPage sound zero named =>
    obtain ⟨fields, read, holds⟩ := PagingFields.exists_readAll_of_unproblematic sound
    obtain ⟨perPage, -, perPageContents⟩ := holds.require_of_named named
    rw [decodeEntries_of_contents zero perPageContents, decodeCounts, of?_zero]
    rfl
  | zeroPerPage page_pos positive zero =>
    rw [decodeEntries_of_contents positive zero, decodeCounts, of?_of_zero_perPage page_pos]
    rfl
  | accepted page perPage =>
    rw [decodeEntries_of_contents page perPage, decodeCounts, of?_self]
    rfl

/-- All entries amount to something. -/
theorem exists_verdict (entries : List Entry) : ∃ outcome, Verdict entries outcome := by
  rcases unproblematic_or_exists_firstProblem entries with sound | ⟨error, first⟩
  · obtain ⟨fields, read, holds⟩ := PagingFields.exists_readAll_of_unproblematic sound
    by_cases pageNamed : PagingField.page.name ∈ entries.map Prod.fst
    · by_cases perPageNamed : PagingField.perPage.name ∈ entries.map Prod.fst
      · obtain ⟨page, -, pageContents⟩ := holds.require_of_named pageNamed
        obtain ⟨perPage, -, perPageContents⟩ := holds.require_of_named perPageNamed
        by_cases page_pos : 0 < page.toNat
        · by_cases perPage_pos : 0 < perPage.toNat
          · have accepted : Verdict entries (.ok ⟨page, perPage, page_pos, perPage_pos⟩) :=
              .accepted pageContents perPageContents
            exact ⟨_, accepted⟩
          · obtain rfl : perPage = 0 := UInt64.toNat_inj.mp (Nat.eq_zero_of_not_pos perPage_pos)
            exact ⟨_, .zeroPerPage page_pos pageContents perPageContents⟩
        · obtain rfl : page = 0 := UInt64.toNat_inj.mp (Nat.eq_zero_of_not_pos page_pos)
          exact ⟨_, .zeroPage sound pageContents perPageNamed⟩
      · exact ⟨_, .missingPerPage sound pageNamed perPageNamed⟩
    · exact ⟨_, .missingPage sound pageNamed⟩
  · exact ⟨_, .problem first⟩

theorem decodeEntries_eq_iff {entries : List Entry} {outcome : Except DecodingError Paging} :
    decodeEntries entries = outcome ↔ Verdict entries outcome := by
  refine ⟨fun same => ?_, decodeEntries_of_verdict⟩
  obtain ⟨other, verdict⟩ := exists_verdict entries
  rw [decodeEntries_of_verdict verdict] at same
  exact same ▸ verdict

/-- A page is read from entries exactly if these have one count for each field and the two are not
zero. -/
theorem exists_decodeEntries_ok_iff {entries : List Entry} :
    (∃ paging, decodeEntries entries = .ok paging) ↔ ∃ page perPage : UInt64,
      1 ≤ page.toNat ∧ 1 ≤ perPage.toNat ∧ PagingField.page.contents entries = [.natural page] ∧
        PagingField.perPage.contents entries = [.natural perPage] := by
  constructor
  · rintro ⟨paging, read⟩
    cases decodeEntries_eq_iff.mp read with
    | accepted page perPage => exact ⟨_, _, paging.page_pos, paging.perPage_pos, page, perPage⟩
  · rintro ⟨page, perPage, page_pos, perPage_pos, pageContents, perPageContents⟩
    have verdict : Verdict entries (.ok ⟨page, perPage, page_pos, perPage_pos⟩) :=
      .accepted pageContents perPageContents
    exact ⟨_, decodeEntries_of_verdict verdict⟩

/-! ### Sequences -/

/-- The items of a pair are read as the contents of the two fields. -/
theorem decodeItems_pair (first second : Document) :
    decodeItems [first, second] =
      decodeEntries [(PagingField.page.name, first), (PagingField.perPage.name, second)] := by
  have scan : PagingFields.empty.readAll
      [(PagingField.page.name, first), (PagingField.perPage.name, second)] =
        (first.count? >>= fun page =>
          second.count?.map fun perPage => ⟨some page, some perPage⟩) := by
    rw [PagingFields.readAll_cons_name, PagingFields.read_of_new rfl]
    cases first.count? with
    | error error => rfl
    | ok page =>
      show (PagingFields.empty.set .page page).readAll [(PagingField.perPage.name, second)] =
        second.count?.map fun perPage => ⟨some page, some perPage⟩
      rw [PagingFields.readAll_cons_name, PagingFields.read_of_new rfl]
      cases second.count? <;> rfl
  rw [decodeItems, decodeEntries, scan]
  cases first.count? with
  | error error => rfl
  | ok page => cases second.count? <;> rfl

/-- What is wrong with the first of several documents that is no count. -/
def FirstNotCount (items : List Document) (error : DecodingError) : Prop :=
  ∃ front item back, items = front ++ item :: back ∧
    (∀ other ∈ front, ∃ count, other = .natural count) ∧ item.NotCount error

theorem not_firstNotCount_nil {error : DecodingError} : ¬FirstNotCount [] error := by
  rintro ⟨front, item, back, split, -⟩
  exact absurd split.symm (by simp)

theorem firstNotCount_cons_iff {first : Document} {rest : List Document} {error : DecodingError} :
    FirstNotCount (first :: rest) error ↔
      first.NotCount error ∨ (∃ count, first = .natural count) ∧ FirstNotCount rest error := by
  constructor
  · rintro ⟨front, item, back, split, counts, refused⟩
    cases front with
    | nil =>
      obtain ⟨rfl, -⟩ := List.cons.inj split
      exact .inl refused
    | cons _ front =>
      obtain ⟨rfl, restSplit⟩ := List.cons.inj split
      exact .inr ⟨counts first List.mem_cons_self, front, item, back, restSplit,
        fun other member => counts other (List.mem_cons_of_mem first member), refused⟩
  · rintro (refused | ⟨count, front, item, back, rfl, counts, refused⟩)
    · exact ⟨[], first, rest, rfl, nofun, refused⟩
    · exact ⟨first :: front, item, back, rfl, List.forall_mem_cons.mpr ⟨count, counts⟩, refused⟩

theorem firstNotCount_or_counts (items : List Document) :
    (∃ error, FirstNotCount items error) ∨ ∀ item ∈ items, ∃ count, item = .natural count := by
  induction items with
  | nil => exact .inr nofun
  | cons first rest inductionHypothesis =>
    cases counted : first.count? with
    | error error =>
      have refused := Document.count?_eq_error_iff.mp counted
      exact .inl ⟨error, firstNotCount_cons_iff.mpr (.inl refused)⟩
    | ok count =>
      have isCount := Document.count?_eq_ok_iff.mp counted
      rcases inductionHypothesis with ⟨error, refused⟩ | counts
      · exact .inl ⟨error, firstNotCount_cons_iff.mpr (.inr ⟨⟨count, isCount⟩, refused⟩)⟩
      · exact .inr (List.forall_mem_cons.mpr ⟨⟨count, isCount⟩, counts⟩)

/-- The two first items are read before anything is said about the length. -/
theorem decodeItems_of_firstNotCount {items : List Document} {error : DecodingError}
    (refused : FirstNotCount (items.take 2) error) : decodeItems items = .error error := by
  match items with
  | [] => exact absurd refused not_firstNotCount_nil
  | [first] =>
    rcases firstNotCount_cons_iff.mp refused with firstRefused | ⟨-, behind⟩
    · rw [decodeItems, Document.count?_eq_error_iff.mpr firstRefused]
      rfl
    · exact absurd behind not_firstNotCount_nil
  | first :: second :: further =>
    rcases firstNotCount_cons_iff.mp refused with firstRefused | ⟨⟨count, rfl⟩, secondFirst⟩
    · rw [decodeItems, Document.count?_eq_error_iff.mpr firstRefused]
      rfl
    · rcases firstNotCount_cons_iff.mp secondFirst with secondRefused | ⟨-, behind⟩
      · rw [decodeItems, Document.count?_eq_error_iff.mpr secondRefused]
        rfl
      · exact absurd behind not_firstNotCount_nil

/-- Behind two counts, a length other than two is what is reported. -/
theorem decodeItems_of_counts {items : List Document} (length : items.length ≠ 2)
    (counts : ∀ item ∈ items.take 2, ∃ count, item = .natural count) :
    decodeItems items = .error (.wrongLength items.length
      (if items.length < 2 then .pagingOfTwo else .fewerItems)) := by
  match items with
  | [] => rfl
  | [first] =>
    obtain ⟨page, rfl⟩ := counts first (by simp)
    rfl
  | [_, _] => exact absurd rfl length
  | first :: second :: third :: rest =>
    obtain ⟨page, rfl⟩ := counts first (by simp)
    obtain ⟨perPage, rfl⟩ := counts second (by simp)
    rw [if_neg (by simp)]
    rfl

/-- Reading a page from entries comes to the first problem with them, or else to the page that they
describe, which they do if each field has one entry and this one holds a count that is not zero. A
pair is read like the entries of the two fields. Any other sequence is refused, and never for a
number or a size: the first of its first two items that is no count is reported, and otherwise the
length. -/
theorem decode_reports_first_problem :
    (PagingField.page.name = "page" ∧ PagingField.perPage.name = "per_page") ∧
      (∀ (entries : List Entry) (outcome : Except DecodingError Paging),
        decodeEntries entries = outcome ↔ Verdict entries outcome) ∧
      (∀ entries, (∃ paging, decodeEntries entries = .ok paging) ↔ ∃ page perPage : UInt64,
        1 ≤ page.toNat ∧ 1 ≤ perPage.toNat ∧ PagingField.page.contents entries = [.natural page] ∧
          PagingField.perPage.contents entries = [.natural perPage]) ∧
      (∀ entries, decode (.mapping entries) = decodeEntries entries) ∧
      (∀ first second, decode (.sequence [first, second]) =
        decodeEntries [(PagingField.page.name, first), (PagingField.perPage.name, second)]) ∧
      ∀ items : List Document, items.length ≠ 2 →
        ∃ error, decode (.sequence items) = .error error ∧
          (∀ problem, error ≠ .invalidPaging problem) ∧
          (∀ problem, FirstNotCount (items.take 2) problem → error = problem) ∧
          ((∀ item ∈ items.take 2, ∃ count, item = .natural count) →
            error = .wrongLength items.length
              (if items.length < 2 then .pagingOfTwo else .fewerItems)) := by
  refine ⟨⟨rfl, rfl⟩, fun entries outcome => decodeEntries_eq_iff,
    fun entries => exists_decodeEntries_ok_iff, fun _ => rfl, decodeItems_pair,
    fun items length => ?_⟩
  show ∃ error, decodeItems items = .error error ∧ _
  rcases firstNotCount_or_counts (items.take 2) with ⟨error, refused⟩ | counts
  · have read := decodeItems_of_firstNotCount refused
    obtain ⟨front, item, back, split, _, itemRefused⟩ := refused
    refine ⟨error, read, itemRefused.ne_invalidPaging, fun problem first => ?_, fun counts => ?_⟩
    · exact Except.error.inj (read.symm.trans (decodeItems_of_firstNotCount first))
    · have member : item ∈ items.take 2 := by rw [split]; simp
      obtain ⟨count, rfl⟩ := counts item member
      nomatch Document.count?_eq_error_iff.mpr itemRefused
  · have read := decodeItems_of_counts length counts
    refine ⟨_, read, fun _ => nofun, fun problem first => ?_, fun _ => rfl⟩
    exact Except.error.inj (read.symm.trans (decodeItems_of_firstNotCount first))

/-- The second number is not read, and what comes behind it is not looked at. -/
example : decodeEntries [("page", .natural 0), ("else", .null), ("page", .text "x"),
    ("per_page", .bool true)] = .error (.duplicateField .page) := rfl

end Paging

end StagedQuery
