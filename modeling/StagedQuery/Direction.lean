/-
This file defines the two directions in which elements can be sorted.
-/

namespace StagedQuery

/-- A sort direction; ascending unless said otherwise. -/
inductive Direction where
  | ascending
  | descending
  deriving DecidableEq, Inhabited

namespace Direction

/-- The result of a comparison as seen in this direction. -/
def apply : Direction → Ordering → Ordering
  | .ascending, comparison => comparison
  | .descending, comparison => comparison.swap

/-- The short word for a direction. -/
def word : Direction → String
  | .ascending => "asc"
  | .descending => "desc"

/-- The direction that a short word stands for. -/
def ofWord? : String → Option Direction
  | "asc" => some .ascending
  | "desc" => some .descending
  | _ => none

/-- The form of a direction that is meant for its programmer. -/
def describe : Direction → String
  | .ascending => "Asc"
  | .descending => "Desc"

theorem ofWord?_word (direction : Direction) : ofWord? direction.word = some direction := by
  cases direction <;> rfl

end Direction

end StagedQuery
