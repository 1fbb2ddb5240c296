/-
This file defines the expressions in which a caller writes the functions of a
query: predicates, projections, comparisons and sort keys.

An expression reads the arguments of the call that it answers. Its operators
are grouped by what they need and give: arithmetic on numbers, relations and
comparisons on values of any kind, connectives on truth values, and operators
on lists, texts and tagged values.
-/

import StagedQuery.Value

namespace StagedQuery

/-- The arithmetic operators. Quotients are cut towards zero, and a remainder has the sign of the
dividend. -/
inductive Arithmetic where
  | add
  | subtract
  | multiply
  | divide
  | remainder
  deriving DecidableEq

/-- The relations between two values of any kinds. -/
inductive Relation where
  | equal
  | different
  | less
  | lessOrEqual
  | greater
  | greaterOrEqual
  deriving DecidableEq

/-- Whether a relation holds between two values that compare as given. -/
def Relation.holds : Relation → Ordering → Bool
  | .equal, comparison => comparison.isEq
  | .different, comparison => comparison.isNe
  | .less, comparison => comparison.isLT
  | .lessOrEqual, comparison => comparison.isLE
  | .greater, comparison => comparison.isGT
  | .greaterOrEqual, comparison => comparison.isGE

/-- The body of a caller's function. -/
inductive Expression where
  /-- An argument of the call, counted from zero. -/
  | argument (position : Nat)
  /-- How many calls of this function came before in the same run. -/
  | earlierCalls
  | constant (value : Value)
  | arithmetic (operator : Arithmetic) (left right : Expression)
  | relation (operator : Relation) (left right : Expression)
  /-- The sign of a comparison: `-1`, `0` or `1`. -/
  | comparison (left right : Expression)
  | not (operand : Expression)
  /-- The right side is read only if the left one is true. -/
  | and (left right : Expression)
  /-- The right side is read only if the left one is false. -/
  | or (left right : Expression)
  /-- Only the chosen branch is read. -/
  | choose (condition positive negative : Expression)
  /-- The number of characters of a text, or of members of a list. -/
  | length (operand : Expression)
  /-- A member of a list, counted from zero. -/
  | member (items position : Expression)
  | list (items : List Expression)
  | key (operand : Expression)
  | tag (operand : Expression)
  | tagged (key tag : Expression)
  | display (operand : Expression)
  | concatenate (left right : Expression)
  | startsWith (text beginning : Expression)
  | fail (text : String)
  /-- Logs the arguments of the call under a label, then goes on. -/
  | log (label : String) (continuation : Expression)
  deriving Inhabited

end StagedQuery
