/-
This file defines what calling a caller's function comes to: a result or a
fault, together with everything that was logged on the way.

The log survives a fault. That is what makes the order of calls observable, so
the sequencing law is the heart of this file: a computation that follows
another adds its log after the first one's, and does not run at all when the
first one fails.
-/

import StagedQuery.Value

namespace StagedQuery

/-! ### Faults -/

/-- What a function can require of a value. -/
inductive Requirement where
  | bool
  | int
  | str
  | list
  | strOrList
  | tagged
  deriving DecidableEq

/-- The words that name a required kind in a message. -/
def Requirement.text : Requirement → String
  | .bool => "bool"
  | .int => "int"
  | .str => "str"
  | .list => "list"
  | .strOrList => "str or list"
  | .tagged => "tagged"

/-- Why a function failed. -/
inductive Fault where
  /-- A number left the signed 64-bit range. -/
  | overflow
  | divisionByZero
  /-- A value was not of the required kind. -/
  | unexpectedKind (required : Requirement)
  | indexOutOfRange
  /-- The function gave up with a message of its own. -/
  | raised (text : String)
  /-- A comparator contradicted itself in a sort. -/
  | inconsistentOrder
  deriving DecidableEq

/-- The short name under which a fault is reported. -/
def Fault.name : Fault → String
  | .overflow => "Overflow"
  | .divisionByZero => "DivZero"
  | .unexpectedKind _ => "Type"
  | .indexOutOfRange => "Index"
  | .raised _ => "Fail"
  | .inconsistentOrder => "Panic"

/-- The message that is reported with a fault. -/
def Fault.message : Fault → String
  | .overflow => "integer overflow"
  | .divisionByZero => "division by zero"
  | .unexpectedKind required => "expected " ++ required.text
  | .indexOutOfRange => "index out of range"
  | .raised text => text
  | .inconsistentOrder =>
    "user-provided comparison function does not correctly implement a total order"

/-! ### Outcomes -/

/-- One line of a log: a label and the arguments of the function that wrote it. -/
structure LogEntry where
  label : String
  arguments : List Value

/-- The log of a computation and what it ended in. -/
structure Outcome (α : Type) where
  trace : List LogEntry
  result : Except Fault α

namespace Outcome

variable {α β : Type}

/-- Fails and logs nothing. -/
def fail (fault : Fault) : Outcome α := ⟨[], .error fault⟩

/-- Logs one entry. -/
def log (entry : LogEntry) : Outcome Unit := ⟨[entry], .ok ()⟩

/-- The same outcome behind an earlier log. -/
def behind (outcome : Outcome α) (trace : List LogEntry) : Outcome α :=
  ⟨trace ++ outcome.trace, outcome.result⟩

/-- Runs a computation on the result of an earlier one, unless the earlier one failed. -/
protected def bind (earlier : Outcome α) (later : α → Outcome β) : Outcome β :=
  match earlier.result with
  | .ok value => (later value).behind earlier.trace
  | .error fault => ⟨earlier.trace, .error fault⟩

instance : Monad Outcome where
  pure value := ⟨[], .ok value⟩
  bind := Outcome.bind

/-- Two outcomes are equal when their logs and their ends are. -/
@[ext]
theorem ext {left right : Outcome α} (traces : left.trace = right.trace)
    (results : left.result = right.result) : left = right := by
  cases left
  cases right
  simp_all

/-! ### The sequencing laws -/

@[simp]
theorem trace_behind (outcome : Outcome α) (trace : List LogEntry) :
    (outcome.behind trace).trace = trace ++ outcome.trace := rfl

@[simp]
theorem result_behind (outcome : Outcome α) (trace : List LogEntry) :
    (outcome.behind trace).result = outcome.result := rfl

@[simp]
theorem trace_pure (value : α) : (pure value : Outcome α).trace = [] := rfl

@[simp]
theorem result_pure (value : α) : (pure value : Outcome α).result = .ok value := rfl

/-- A successful computation is followed by the next one, whose log comes after. -/
theorem mk_ok_bind (trace : List LogEntry) (value : α) (later : α → Outcome β) :
    (⟨trace, .ok value⟩ : Outcome α) >>= later = (later value).behind trace := rfl

theorem bind_of_ok {earlier : Outcome α} {value : α} (succeeded : earlier.result = .ok value)
    (later : α → Outcome β) : earlier >>= later = (later value).behind earlier.trace := by
  obtain ⟨trace, result⟩ := earlier
  obtain rfl : result = .ok value := succeeded
  rfl

/-- Nothing runs after a failed computation. -/
theorem bind_of_error {earlier : Outcome α} {fault : Fault} (failed : earlier.result = .error fault)
    (later : α → Outcome β) : earlier >>= later = ⟨earlier.trace, .error fault⟩ := by
  obtain ⟨trace, result⟩ := earlier
  obtain rfl : result = .error fault := failed
  rfl

/-- Two computations that go on alike after every result that the earlier one can come to. -/
theorem bind_congr_of_ok {earlier : Outcome α} {first second : α → Outcome β}
    (alike : ∀ value, earlier.result = .ok value → first value = second value) :
    earlier >>= first = earlier >>= second := by
  cases ended : earlier.result with
  | error fault => rw [bind_of_error ended, bind_of_error ended]
  | ok value => rw [bind_of_ok ended, bind_of_ok ended, alike value ended]

/-- What succeeds in two steps succeeds in the first of them. -/
theorem exists_ok_of_bind_ok {earlier : Outcome α} {later : α → Outcome β} {value : β}
    (succeeded : (earlier >>= later).result = .ok value) :
    ∃ middle, earlier.result = .ok middle ∧ (later middle).result = .ok value := by
  cases ended : earlier.result with
  | error fault =>
    rw [bind_of_error ended] at succeeded
    nomatch succeeded
  | ok middle =>
    rw [bind_of_ok ended] at succeeded
    exact ⟨middle, rfl, succeeded⟩

instance : LawfulMonad Outcome := LawfulMonad.mk' Outcome
  (by
    rintro α ⟨trace, result⟩
    cases result with
    | error fault => rfl
    | ok value => exact Outcome.ext (List.append_nil trace) rfl)
  (by
    intro α β value later
    rfl)
  (by
    rintro α β γ ⟨trace, result⟩ second third
    cases result with
    | error fault => rfl
    | ok value =>
      rw [mk_ok_bind, mk_ok_bind]
      obtain ⟨innerTrace, innerResult⟩ := second value
      cases innerResult with
      | error fault => rfl
      | ok image => exact Outcome.ext (List.append_assoc ..) rfl)

/-- Changing a result leaves the log alone. -/
@[simp]
theorem trace_map (change : α → β) (outcome : Outcome α) :
    (change <$> outcome).trace = outcome.trace := by
  obtain ⟨trace, result⟩ := outcome
  cases result with
  | error fault => rfl
  | ok value => exact List.append_nil trace

@[simp]
theorem result_map (change : α → β) (outcome : Outcome α) :
    (change <$> outcome).result = outcome.result.map change := by
  obtain ⟨trace, result⟩ := outcome
  cases result <;> rfl

end Outcome

end StagedQuery
