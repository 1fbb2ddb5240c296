/-
This file defines documents, the trees that descriptions of pages and
directions are read from and written to, and how a message names what it found
in one.
-/

import StagedQuery.Decimal.Layout
import StagedQuery.Decimal.Numeral
import StagedQuery.Text.Quoted

namespace StagedQuery

/-- A tree of plain data. Whole numbers that fit no machine word are floating-point numbers. -/
inductive Document where
  | null
  | bool (truth : Bool)
  | natural (number : UInt64)
  | negative (number : Int)
  | float (number : Float)
  | text (content : String)
  | sequence (items : List Document)
  | mapping (entries : List (String × Document))
  deriving Inhabited

namespace Document

/-! ### Numbers -/

/-- The document that a numeral stands for. -/
def ofNumeral (numeral : Decimal.Numeral) : Document :=
  match numeral.whole? with
  | some (.ofNat number) => .natural (UInt64.ofNat number)
  | some number => .negative number
  | none => .float numeral.toFloat

/-! ### Objects -/

/-- Enters a member among members that are sorted by name; a later member takes the place of an
earlier one of the same name. -/
def enter (name : String) (content : Document) :
    List (String × Document) → List (String × Document)
  | [] => [(name, content)]
  | (other, present) :: rest =>
    match compare name other with
    | .lt => (name, content) :: (other, present) :: rest
    | .eq => (name, content) :: rest
    | .gt => (other, present) :: enter name content rest

/-- The object with these members. Its members are sorted by name. -/
def object (members : List (String × Document)) : Document :=
  .mapping (members.foldl (fun entries member => enter member.1 member.2 entries) [])

/-! ### Names of what was found -/

/-- Numbers in messages are positional from `0.00001` up to sixteen places before the point. -/
def layout : Decimal.Layout := ⟨-4, 16⟩

/-- What a message calls a document. -/
def kind : Document → String
  | .null => "null"
  | .bool truth => "boolean `" ++ (if truth then "true" else "false") ++ "`"
  | .natural number => "integer `" ++ toString number.toNat ++ "`"
  | .negative number => "integer `" ++ toString number ++ "`"
  | .float number => "floating point `" ++ layout.text number ++ "`"
  | .text content => "string " ++ Text.quoted content
  | .sequence _ => "sequence"
  | .mapping _ => "map"

end Document

end StagedQuery
