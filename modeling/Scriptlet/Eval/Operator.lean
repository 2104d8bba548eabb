/-
**Operators.**

* `Eval`: an evaluation, which reads and changes the store and may end in a fault; what it changed
  before a fault stays.
* `applyUnary`, `applyBinary`, `applyIndex`: what an operator yields for its operands. Arithmetic
  wraps to 64 bits and division drops the fraction; `==` and `!=` compare integers by number and
  other values by identity.
-/
import Scriptlet.Number.Word
import Scriptlet.Store
import Scriptlet.Value.Text

namespace Scriptlet

/-- An evaluation. -/
abbrev Eval (α : Type) := ExceptT Fault (StateM Store) α

namespace Eval

/-- The result of an evaluation from a store, and the store after it. -/
def runFrom {α : Type} (evaluation : Eval α) (store : Store) : Except Fault α × Store :=
  evaluation.run store

/-- A value with an identity of its own. -/
def identified (make : Nat → Value) : Eval Value := do
  let identity ← modifyGet Store.identify
  return make identity

/-- A runtime error. -/
def complain (complaint : Complaint) : Eval Value :=
  identified fun identity => .error identity complaint

/-- The type of a value that is there. -/
def tagOf (value : Value) : Eval Tag :=
  match value.tag? with
  | some tag => return tag
  | none => throw .valueMissing

/-- The rest of an evaluation, unless a value ends it. -/
def unlessSignal (value : Value) (rest : Eval Value) : Eval Value :=
  if value.isSignal then return value else rest

end Eval

/-- The binary operators. -/
inductive BinaryOperator where
  | add
  | subtract
  | multiply
  | divide
  | less
  | greater
  | equal
  | differ
  deriving DecidableEq, Repr

/-- The binary operator with a given spelling. -/
def BinaryOperator.ofText? : String → Option BinaryOperator
  | "+" => some add
  | "-" => some subtract
  | "*" => some multiply
  | "/" => some divide
  | "<" => some less
  | ">" => some greater
  | "==" => some equal
  | "!=" => some differ
  | _ => none

namespace Eval

/-- What a binary operator yields for integers. -/
def combineIntegers (left right : Int) : BinaryOperator → Eval Value
  | .add => return .integer (Number.wrap (left + right))
  | .subtract => return .integer (Number.wrap (left - right))
  | .multiply => return .integer (Number.wrap (left * right))
  | .divide =>
    if right = 0 then throw .divisionByZero
    else return .integer (Number.wrap (Number.quotient left right))
  | .less => return .boolean (decide (left < right))
  | .greater => return .boolean (decide (left > right))
  | .equal => return .boolean (left == right)
  | .differ => return .boolean (left != right)

/-- What a binary operator yields. -/
def applyBinary (operator : String) (left right : Value) : Eval Value := do
  let leftTag ← tagOf left
  let rightTag ← tagOf right
  match BinaryOperator.ofText? operator, left, right with
  | some known, .integer first, .integer second => combineIntegers first second known
  | some .equal, _, _ => return .boolean (left.same right)
  | some .differ, _, _ => return .boolean (!left.same right)
  | some .add, .string _ first, .string _ second =>
    identified fun identity => .string identity (first ++ second)
  | _, _, _ =>
    if leftTag = rightTag then complain (.unknownBinary leftTag operator rightTag)
    else complain (.typeMismatch leftTag operator rightTag)

/-- What a unary operator yields. -/
def applyUnary (operator : String) (right : Value) : Eval Value :=
  match operator, right with
  | "!", right => return .boolean (!right.isTruthy)
  | "-", .integer number => return .integer (Number.wrap (-number))
  | operator, right => do complain (.unknownUnary operator (← tagOf right))

/-- The element of a container at an index; null outside of it. -/
def applyIndex (container index : Value) : Eval Value :=
  match container, index with
  | .array _ elements, .integer position =>
    if position < 0 then return .null else return elements[position.toNat]?.getD .null
  | container, _ => do complain (.notIndexable (← tagOf container))

end Eval

end Scriptlet
