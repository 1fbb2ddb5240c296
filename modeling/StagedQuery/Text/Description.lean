/-
This file defines the forms in which a structure shows itself to a programmer:
a plain word, something wrapped in a named constructor, or a named record whose
list of fields may be left open.

A description is printed on one line or, indented, on one line per field; the
two printers read the same tree, so they can only differ in layout.
-/

namespace StagedQuery.Text

/-- What a structure shows of itself. -/
inductive Description where
  | word (text : String)
  | wrapped (name : String) (content : Description)
  /-- A record; an open one has more fields than it shows. -/
  | record (name : String) (fields : List (String × Description)) (isOpen : Bool)
  deriving Inhabited

namespace Description

/-- A value that may be missing. -/
def ofOption : Option Description → Description
  | none => .word "None"
  | some content => .wrapped "Some" content

/-- A count. -/
def ofNat (count : Nat) : Description := .word (toString count)

/-! ### On one line -/

mutual

/-- The description on one line. -/
def inline : Description → String
  | .word text => text
  | .wrapped name content => name ++ "(" ++ content.inline ++ ")"
  | .record name fields isOpen =>
    name ++ " \x7b " ++ ", ".intercalate (inlineFields fields ++ if isOpen then [".."] else []) ++
      " \x7d"

/-- Each field with its name. -/
def inlineFields : List (String × Description) → List String
  | [] => []
  | (name, content) :: rest => (name ++ ": " ++ content.inline) :: inlineFields rest

end

/-! ### Indented -/

/-- The blanks in front of a line that is nested this deep. -/
def margin (depth : Nat) : String := String.ofList (List.replicate (4 * depth) ' ')

mutual

/-- The description with every nested part on lines of its own. -/
def indented (depth : Nat) : Description → String
  | .word text => text
  | .wrapped name content =>
    name ++ "(\n" ++ margin (depth + 1) ++ indented (depth + 1) content ++ ",\n" ++
      margin depth ++ ")"
  | .record name fields isOpen =>
    name ++ " \x7b\n" ++ indentedFields (depth + 1) fields ++
      (if isOpen then margin (depth + 1) ++ "..\n" else "") ++ margin depth ++ "\x7d"

/-- The lines of the fields. -/
def indentedFields (depth : Nat) : List (String × Description) → String
  | [] => ""
  | (name, content) :: rest =>
    margin depth ++ name ++ ": " ++ indented depth content ++ ",\n" ++ indentedFields depth rest

end

end Description

end StagedQuery.Text
