/-
This file defines shortcuts for callers that need no query: one pass over a
list with one function.

The functions are called on the elements in order, each told how often it was
called before, and the three questions stop at the first element that settles
them.
-/

import StagedQuery.Outcome

namespace StagedQuery.OneShot

variable {α β : Type}

/-! ### Lists -/

/-- Projects every element, after a number of earlier calls. -/
def mapFrom (mapper : Nat → α → Outcome β) (earlierCalls : Nat) : List α → Outcome (List β)
  | [] => pure []
  | element :: rest => do
    let image ← mapper earlierCalls element
    return image :: (← mapFrom mapper (earlierCalls + 1) rest)

/-- Projects every element. -/
def map (mapper : Nat → α → Outcome β) (items : List α) : Outcome (List β) :=
  mapFrom mapper 0 items

/-- Keeps the accepted elements, after a number of earlier calls. -/
def filterFrom (check : Nat → α → Outcome Bool) (earlierCalls : Nat) : List α → Outcome (List α)
  | [] => pure []
  | element :: rest => do
    let accepted ← check earlierCalls element
    let kept ← filterFrom check (earlierCalls + 1) rest
    return if accepted then element :: kept else kept

/-- Keeps the accepted elements. -/
def filter (check : Nat → α → Outcome Bool) (items : List α) : Outcome (List α) :=
  filterFrom check 0 items

/-! ### Texts -/

/-- Appends the texts of elements to what is joined already. The delimiter comes before every
element but the one in the first place. -/
def joinFrom (display : α → String) (delimiter : String) (place : Nat) (joined : String) :
    List α → String
  | [] => joined
  | element :: rest =>
    let parted := if 0 < place then joined ++ delimiter else joined
    joinFrom display delimiter (place + 1) (parted ++ display element) rest

/-- The texts of the elements, with a delimiter between every two neighbours. -/
def join (display : α → String) (delimiter : String) (items : List α) : String :=
  joinFrom display delimiter 0 "" items

/-! ### Questions -/

/-- Whether some element is accepted, after a number of earlier calls. -/
def anyFrom (check : Nat → α → Outcome Bool) (earlierCalls : Nat) : List α → Outcome Bool
  | [] => pure false
  | element :: rest => do
    if ← check earlierCalls element then return true
    else anyFrom check (earlierCalls + 1) rest

/-- Whether some element is accepted. -/
def any (check : Nat → α → Outcome Bool) (items : List α) : Outcome Bool :=
  anyFrom check 0 items

/-- Whether every element is accepted, after a number of earlier calls. -/
def allFrom (check : Nat → α → Outcome Bool) (earlierCalls : Nat) : List α → Outcome Bool
  | [] => pure true
  | element :: rest => do
    if ← check earlierCalls element then allFrom check (earlierCalls + 1) rest
    else return false

/-- Whether every element is accepted. -/
def all (check : Nat → α → Outcome Bool) (items : List α) : Outcome Bool :=
  allFrom check 0 items

/-- Whether no element is accepted. -/
def none (check : Nat → α → Outcome Bool) (items : List α) : Outcome Bool :=
  Bool.not <$> any check items

end StagedQuery.OneShot
