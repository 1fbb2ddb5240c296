/-
This file follows a strategy when its questions are answered by an order.

The order gives one answer to each question, so a strategy then comes to one
value, or it finds a contradiction that an order does not give. What a strategy
finds is reasoned about step by step: a strategy that is continued finds what
the continuation finds on the values of the first part.
-/

import StagedQuery.Strategy

namespace StagedQuery.Strategy

variable {α β γ : Type} {comparing : α → α → Ordering}

/-- With the answers of an order, a strategy reaches a goal. -/
def Finds (comparing : α → α → Ordering) (goal : β → Prop) : Strategy α β → Prop
  | done value => goal value
  | ask left right next => (next (comparing left right).isLT).Finds comparing goal
  | contradicted => False

namespace Finds

@[simp]
theorem pure_iff {goal : β → Prop} {value : β} :
    (pure value : Strategy α β).Finds comparing goal ↔ goal value := Iff.rfl

@[simp]
theorem isLess_iff {goal : Bool → Prop} {left right : α} :
    (isLess left right).Finds comparing goal ↔ goal (comparing left right).isLT := Iff.rfl

/-- A continued strategy reaches what the continuation reaches. -/
@[simp]
theorem bind_iff {goal : γ → Prop} {strategy : Strategy α β} {later : β → Strategy α γ} :
    (strategy >>= later).Finds comparing goal ↔
      strategy.Finds comparing fun value => (later value).Finds comparing goal := by
  induction strategy with
  | done value => exact Iff.rfl
  | ask left right next inductionHypothesis => exact inductionHypothesis _
  | contradicted => exact Iff.rfl

@[simp]
theorem map_iff {goal : γ → Prop} {change : β → γ} {strategy : Strategy α β} :
    (change <$> strategy).Finds comparing goal ↔
      strategy.Finds comparing fun value => goal (change value) := by
  rw [map_eq_pure_bind, bind_iff]
  exact Iff.rfl

/-- A strategy that reaches a goal reaches every goal that follows from it. -/
theorem mono {goal wider : β → Prop} {strategy : Strategy α β}
    (found : strategy.Finds comparing goal) (follows : ∀ value, goal value → wider value) :
    strategy.Finds comparing wider := by
  induction strategy with
  | done value => exact follows value found
  | ask left right next inductionHypothesis => exact inductionHypothesis _ found
  | contradicted => exact found

/-- Goals that are reached are reached together. -/
theorem and {goal goal' : β → Prop} {strategy : Strategy α β}
    (first : strategy.Finds comparing goal) (second : strategy.Finds comparing goal') :
    strategy.Finds comparing fun value => goal value ∧ goal' value := by
  induction strategy with
  | done value => exact ⟨first, second⟩
  | ask left right next inductionHypothesis => exact inductionHypothesis _ first second
  | contradicted => exact first

/-- What is reached is reached at some value. -/
theorem exists_value {goal : β → Prop} {strategy : Strategy α β}
    (found : strategy.Finds comparing goal) : ∃ value, goal value := by
  induction strategy with
  | done value => exact ⟨value, found⟩
  | ask left right next inductionHypothesis => exact inductionHypothesis _ found
  | contradicted => exact found.elim

/-- A step that leads from one stretch of the way to the next leads to the end of the way. -/
theorem repeated (reached : Nat → β → Prop) {step : β → Strategy α β} {count start : Nat}
    {state : β} (initial : reached start state)
    (advance : ∀ index < start + count, ∀ state, reached index state →
      (step state).Finds comparing (reached (index + 1))) :
    (Strategy.repeated step count state).Finds comparing (reached (start + count)) := by
  induction count generalizing start state with
  | zero => exact initial
  | succ count inductionHypothesis =>
    rw [Strategy.repeated, bind_iff]
    refine (advance start (by omega) state initial).mono fun state' initial' => ?_
    have found := inductionHypothesis initial' fun index bound =>
      advance index (by omega)
    rwa [Nat.add_right_comm, Nat.add_assoc] at found

end Finds

end StagedQuery.Strategy
