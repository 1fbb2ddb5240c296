/-
This file defines strategies: ways to find a value by asking which of two
elements is the lesser one.

A strategy knows about its elements only what it is told. What it asks, and in
which order, is therefore part of the strategy itself, whoever answers; and it
can say that the answers contradict each other.
-/

namespace StagedQuery

/-- A way to find a value by asking whether one element is less than another. -/
inductive Strategy (α β : Type) where
  | done (value : β)
  | ask (left right : α) (next : Bool → Strategy α β)
  /-- No order of the elements gives the answers that were given. -/
  | contradicted

namespace Strategy

variable {α β γ : Type}

/-- Asks whether the left element is less than the right one. -/
def isLess (left right : α) : Strategy α Bool := ask left right done

/-- Goes on with another strategy once the value is found. -/
protected def bind : Strategy α β → (β → Strategy α γ) → Strategy α γ
  | done value, later => later value
  | ask left right next, later => ask left right fun answer => (next answer).bind later
  | contradicted, _ => contradicted

instance : Monad (Strategy α) where
  pure := done
  bind := Strategy.bind

/-- Takes a step a number of times. -/
def repeated (step : β → Strategy α β) : Nat → β → Strategy α β
  | 0, state => pure state
  | count + 1, state => do repeated step count (← step state)

/-! ### The sequencing laws -/

instance : LawfulMonad (Strategy α) := LawfulMonad.mk' (Strategy α)
  (by
    intro β strategy
    induction strategy with
    | done value => rfl
    | ask left right next inductionHypothesis =>
      exact congrArg (ask left right) (funext inductionHypothesis)
    | contradicted => rfl)
  (by
    intro β γ value later
    rfl)
  (by
    intro β γ δ strategy second third
    induction strategy with
    | done value => rfl
    | ask left right next inductionHypothesis =>
      exact congrArg (ask left right) (funext inductionHypothesis)
    | contradicted => rfl)

end Strategy

end StagedQuery
