/-
This file reads and writes pages and directions as documents.

A page is a mapping with the fields `page` and `per_page`, or a sequence of the
two. The entries of a mapping are read in order, unknown ones are passed over,
and the first problem is the one that is reported: a field that comes a second
time, or a content that is no count. Only then are missing fields looked for,
and last of all the page itself is checked. A direction is its word, or a
mapping of that word alone to nothing; entries that come one by one, without a
mapping around them, are a page at most and never a direction.
-/

import StagedQuery.Direction
import StagedQuery.Document
import StagedQuery.Paging

namespace StagedQuery

/-! ### Problems -/

/-- What was needed in a place of a document. -/
inductive Expectation where
  | count
  | paging
  | pagingOfTwo
  | fewerItems
  | wordOrMapping
  | direction
  | singleEntry
  | nothing
  deriving DecidableEq

/-- The words for what was needed. -/
def Expectation.words : Expectation → String
  | .count => "usize"
  | .paging => "struct RawPaging"
  | .pagingOfTwo => "struct RawPaging with 2 elements"
  | .fewerItems => "fewer elements in array"
  | .wordOrMapping => "string or map"
  | .direction => "enum Dir"
  | .singleEntry => "map with a single key"
  | .nothing => "unit"

/-- The fields of a page. -/
inductive PagingField where
  | page
  | perPage
  deriving DecidableEq

namespace PagingField

/-- The name of a field in a document. -/
def name : PagingField → String
  | .page => "page"
  | .perPage => "per_page"

/-- The field of a name. -/
def ofName? : String → Option PagingField
  | "page" => some .page
  | "per_page" => some .perPage
  | _ => none

theorem ofName?_name (field : PagingField) : ofName? field.name = some field := by
  cases field <;> rfl

end PagingField

/-- Why a document could not be read. -/
inductive DecodingError where
  | wrongKind (found : Document) (expected : Expectation)
  | wrongValue (found : Document) (expected : Expectation)
  | wrongLength (length : Nat) (expected : Expectation)
  | duplicateField (field : PagingField)
  | missingField (field : PagingField)
  | unknownDirection (word : String)
  | invalidPaging (error : PagingError)

/-- What the problem tells a reader. -/
def DecodingError.message : DecodingError → String
  | .wrongKind found expected =>
    "invalid type: " ++ found.kind ++ ", expected " ++ expected.words
  | .wrongValue found expected =>
    "invalid value: " ++ found.kind ++ ", expected " ++ expected.words
  | .wrongLength length expected =>
    "invalid length " ++ toString length ++ ", expected " ++ expected.words
  | .duplicateField field => "duplicate field `" ++ field.name ++ "`"
  | .missingField field => "missing field `" ++ field.name ++ "`"
  | .unknownDirection word =>
    "unknown variant `" ++ word ++ "`, expected `" ++ Direction.ascending.word ++ "` or `" ++
      Direction.descending.word ++ "`"
  | .invalidPaging error => error.message

/-! ### Counts -/

/-- The count that a document is. -/
def Document.count? : Document → Except DecodingError UInt64
  | .natural number => .ok number
  | .negative number => .error (.wrongValue (.negative number) .count)
  | other => .error (.wrongKind other .count)

/-! ### Pages -/

/-- The fields of a page that were read so far. -/
structure PagingFields where
  page : Option UInt64
  perPage : Option UInt64
  deriving DecidableEq

namespace PagingFields

/-- No field yet. -/
def empty : PagingFields := ⟨none, none⟩

/-- What was read for a field. -/
def get : PagingFields → PagingField → Option UInt64
  | fields, .page => fields.page
  | fields, .perPage => fields.perPage

/-- Fills in a field. -/
def set : PagingFields → PagingField → UInt64 → PagingFields
  | fields, .page, count => { fields with page := some count }
  | fields, .perPage, count => { fields with perPage := some count }

/-- Reads one field, which must not have been read before. -/
def read (fields : PagingFields) (field : PagingField) (content : Document) :
    Except DecodingError PagingFields :=
  match fields.get field with
  | some _ => .error (.duplicateField field)
  | none => content.count?.map (fields.set field)

/-- Reads the entries of a mapping in order. -/
def readAll (fields : PagingFields) : List (String × Document) → Except DecodingError PagingFields
  | [] => .ok fields
  | (name, content) :: rest =>
    match PagingField.ofName? name with
    | some field => do (← fields.read field content).readAll rest
    | none => fields.readAll rest

/-- The count of a field that must have been read. -/
def require (fields : PagingFields) (field : PagingField) : Except DecodingError UInt64 :=
  match fields.get field with
  | some count => .ok count
  | none => .error (.missingField field)

end PagingFields

namespace Paging

/-- The page with a number and a size, or the problem with them. -/
def decodeCounts (page perPage : UInt64) : Except DecodingError Paging :=
  (of? page perPage).mapError .invalidPaging

/-- Reads a page from the entries of a mapping. -/
def decodeEntries (entries : List (String × Document)) : Except DecodingError Paging := do
  let fields ← PagingFields.empty.readAll entries
  let page ← fields.require .page
  let perPage ← fields.require .perPage
  decodeCounts page perPage

/-- Reads a page from the items of a sequence. -/
def decodeItems : List Document → Except DecodingError Paging
  | [] => .error (.wrongLength 0 .pagingOfTwo)
  | [first] => do
    let _ ← first.count?
    .error (.wrongLength 1 .pagingOfTwo)
  | first :: second :: further => do
    let page ← first.count?
    let perPage ← second.count?
    if further.isEmpty then decodeCounts page perPage
    else .error (.wrongLength (further.length + 2) .fewerItems)

/-- Reads a page. -/
def decode : Document → Except DecodingError Paging
  | .mapping entries => decodeEntries entries
  | .sequence items => decodeItems items
  | other => .error (.wrongKind other .paging)

/-- Writes a page. -/
def encode (paging : Paging) : Document :=
  .mapping [(PagingField.page.name, .natural paging.page),
    (PagingField.perPage.name, .natural paging.perPage)]

/-- A written page reads back. -/
theorem decode_encode (paging : Paging) : decode paging.encode = .ok paging := by
  show decodeCounts paging.page paging.perPage = .ok paging
  rw [decodeCounts, of?_self]
  rfl

end Paging

/-! ### Directions -/

namespace Direction

/-- The direction of a word, or the problem with it. -/
def decodeWord (word : String) : Except DecodingError Direction :=
  match ofWord? word with
  | some direction => .ok direction
  | none => .error (.unknownDirection word)

/-- Reads a direction. -/
def decode : Document → Except DecodingError Direction
  | .text word => decodeWord word
  | .mapping [(word, content)] => do
    let direction ← decodeWord word
    match content with
    | .null => .ok direction
    | other => .error (.wrongKind other .nothing)
  | .mapping entries => .error (.wrongValue (.mapping entries) .singleEntry)
  | other => .error (.wrongKind other .wordOrMapping)

/-- Refuses entries that come one by one: a direction is a word or a whole mapping. -/
def decodeEntries (entries : List (String × Document)) : Except DecodingError Direction :=
  .error (.wrongKind (.mapping entries) .direction)

/-- Writes a direction. -/
def encode (direction : Direction) : Document := .text direction.word

/-- A written direction reads back. -/
theorem decode_encode (direction : Direction) : decode direction.encode = .ok direction := by
  show decodeWord direction.word = .ok direction
  rw [decodeWord, ofWord?_word]

end Direction

end StagedQuery
