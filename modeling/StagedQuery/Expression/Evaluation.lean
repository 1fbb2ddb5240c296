/-
This file evaluates expressions.

Operands are evaluated from left to right, and an operand's kind is required
before the next operand is looked at; the one exception is a list's member,
where the position is read and required to be a number before the list is
required to be a list. Arithmetic is exact and refuses results outside the
signed 64-bit range.
-/

import StagedQuery.Expression
import StagedQuery.Outcome
import StagedQuery.Value.Order

namespace StagedQuery

/-! ### Required kinds -/

namespace Value

def requireBool : Value → Outcome Bool
  | .bool truth => pure truth
  | _ => .fail (.unexpectedKind .bool)

def requireInt : Value → Outcome Int
  | .int number => pure number
  | _ => .fail (.unexpectedKind .int)

def requireStr : Value → Outcome String
  | .str text => pure text
  | _ => .fail (.unexpectedKind .str)

def requireList : Value → Outcome (List Value)
  | .list items => pure items
  | _ => .fail (.unexpectedKind .list)

def requireTagged : Value → Outcome (Value × String)
  | .tagged key tag => pure (key, tag)
  | _ => .fail (.unexpectedKind .tagged)

/-- The length of a text or of a list. -/
def requireLength : Value → Outcome Nat
  | .str text => pure text.length
  | .list items => pure items.length
  | _ => .fail (.unexpectedKind .strOrList)

end Value

/-! ### Arithmetic -/

namespace Arithmetic

/-- Accepts the numbers that fit a signed 64-bit word. -/
def within (number : Int) : Outcome Int :=
  if -0x8000000000000000 ≤ number ∧ number < 0x8000000000000000 then pure number
  else .fail .overflow

/-- Applies an operator. A remainder exists only where the quotient does. -/
def apply : Arithmetic → Int → Int → Outcome Int
  | .add, left, right => within (left + right)
  | .subtract, left, right => within (left - right)
  | .multiply, left, right => within (left * right)
  | .divide, left, right =>
    if right = 0 then .fail .divisionByZero else within (left.tdiv right)
  | .remainder, left, right =>
    if right = 0 then .fail .divisionByZero
    else do
      let _ ← within (left.tdiv right)
      return left.tmod right

end Arithmetic

/-! ### Evaluation -/

/-- One call of a caller's function. -/
structure Call where
  arguments : List Value
  earlierCalls : Nat

/-- The sign of a comparison as a number. -/
def signOf : Ordering → Int
  | .lt => -1
  | .eq => 0
  | .gt => 1

namespace Expression

mutual

/-- The value of an expression in a call. -/
def evaluate (call : Call) : Expression → Outcome Value
  | .argument position => pure (call.arguments.getD position .null)
  | .earlierCalls => pure (.int call.earlierCalls)
  | .constant value => pure value
  | .arithmetic operator left right => do
    let leftNumber ← (← evaluate call left).requireInt
    let rightNumber ← (← evaluate call right).requireInt
    return .int (← operator.apply leftNumber rightNumber)
  | .relation operator left right => do
    let leftValue ← evaluate call left
    let rightValue ← evaluate call right
    return .bool (operator.holds (compare leftValue rightValue))
  | .comparison left right => do
    let leftValue ← evaluate call left
    let rightValue ← evaluate call right
    return .int (signOf (compare leftValue rightValue))
  | .not operand => do
    let truth ← (← evaluate call operand).requireBool
    return .bool !truth
  | .and left right => do
    if ← (← evaluate call left).requireBool then
      return .bool (← (← evaluate call right).requireBool)
    else return .bool false
  | .or left right => do
    if ← (← evaluate call left).requireBool then return .bool true
    else return .bool (← (← evaluate call right).requireBool)
  | .choose condition positive negative => do
    if ← (← evaluate call condition).requireBool then evaluate call positive
    else evaluate call negative
  | .length operand => do
    return .int (← (← evaluate call operand).requireLength)
  | .member items position => do
    let list ← evaluate call items
    let index ← (← evaluate call position).requireInt
    let members ← list.requireList
    if index < 0 then .fail .indexOutOfRange
    else
      match members[index.toNat]? with
      | some value => return value
      | none => .fail .indexOutOfRange
  | .list items => do return .list (← evaluateAll call items)
  | .key operand => do return (← (← evaluate call operand).requireTagged).1
  | .tag operand => do return .str (← (← evaluate call operand).requireTagged).2
  | .tagged inner label => do
    let key ← evaluate call inner
    return .tagged key (← (← evaluate call label).requireStr)
  | .display operand => do return .str (← evaluate call operand).display
  | .concatenate left right => do
    let leftText ← (← evaluate call left).requireStr
    let rightText ← (← evaluate call right).requireStr
    return .str (leftText ++ rightText)
  | .startsWith text beginning => do
    let wholeText ← (← evaluate call text).requireStr
    let beginningText ← (← evaluate call beginning).requireStr
    return .bool (beginningText.toList.isPrefixOf wholeText.toList)
  | .fail text => .fail (.raised text)
  | .log label continuation => do
    Outcome.log ⟨label, call.arguments⟩
    evaluate call continuation

/-- The values of several expressions, from left to right. -/
def evaluateAll (call : Call) : List Expression → Outcome (List Value)
  | [] => pure []
  | expression :: rest => do
    let value ← evaluate call expression
    return value :: (← evaluateAll call rest)

end

/-! ### Expressions as functions -/

/-- A projection, which is told how often it was called before. -/
def mapper (body : Expression) (earlierCalls : Nat) (element : Value) : Outcome Value :=
  body.evaluate ⟨[element], earlierCalls⟩

/-- A test that is told how often it was called before. -/
def countedTest (body : Expression) (earlierCalls : Nat) (element : Value) : Outcome Bool := do
  (← body.evaluate ⟨[element], earlierCalls⟩).requireBool

/-- A test that does not count its calls. -/
def test (body : Expression) (element : Value) : Outcome Bool :=
  body.countedTest 0 element

/-- A sort key. -/
def sortKey (body : Expression) (element : Value) : Outcome Value :=
  body.mapper 0 element

/-- A comparison, read off the sign of a number: a negative one means that the first argument
comes first. -/
def comparing (body : Expression) (left right : Value) : Outcome Ordering := do
  let number ← (← body.evaluate ⟨[left, right], 0⟩).requireInt
  return compare number 0

end Expression

end StagedQuery
