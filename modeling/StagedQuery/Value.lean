/-
This file defines the values that queries select, project and compare, and the
text that shows a value.

A value may carry a tag beside its key. The tag travels with the value but has
no part in comparing it, so two elements that compare equal can still be told
apart in an answer.
-/

namespace StagedQuery

/-- An element of a query's source, a key, or the result of a projection. -/
inductive Value where
  | null
  | bool (truth : Bool)
  | int (number : Int)
  | str (text : String)
  | list (items : List Value)
  | tagged (key : Value) (tag : String)
  deriving Inhabited

namespace Value

/-! ### The text of a value -/

mutual

/-- A text stands for itself, without quotes; a tagged value shows its key, then its tag. -/
def display : Value → String
  | .null => "null"
  | .bool true => "true"
  | .bool false => "false"
  | .int number => toString number
  | .str text => text
  | .list items => "[" ++ displayItems items ++ "]"
  | .tagged key tag => key.display ++ "#" ++ tag

/-- The members of a list are parted by a comma and a blank. -/
def displayItems : List Value → String
  | [] => ""
  | [item] => item.display
  | item :: next :: rest => item.display ++ ", " ++ displayItems (next :: rest)

end

end Value

end StagedQuery
