/-
**The parts of a tree in its evaluation.**

* `Tree.operands`: the parts that are evaluated on the scope of the tree itself.
* `Tree.consumed`: those of them whose values the tree uses, so that each must have one.
* `Tree.isExpression`: the trees that stand for a value; a statement, a block and a program may have
  none.
* `Tree.Flaw`: a fault that a tree leads to by its own shape, whatever its parts yield.

Trees made by hand may have any shape; `Tree.Shaped` in the next module describes those of programs.
-/
import Scriptlet.Fault

namespace Scriptlet

/-- The labels of expressions. -/
def Label.isExpression : Label → Bool
  | integer | string | boolean | identifier | unary | binary | conditional | function | call | index
  | array | hash => true
  | _ => false

namespace Tree

/-- A tree that stands for a value. -/
def isExpression (tree : Tree) : Bool :=
  tree.label?.any Label.isExpression

/-- The parts of a tree that are evaluated on the scope of the tree itself. -/
def operands : Tree → List Tree
  | .node .letStatement [_, value] => [value]
  | .node .unary [_, right] => [right]
  | .node .binary [left, _, right] => [left, right]
  | .node .call [callee, arguments] => callee :: arguments.children
  | .node .hash pairs => pairs.flatMap children
  | .node .program parts | .node .block parts | .node .expressionStatement parts
  | .node .returnStatement parts | .node .index parts | .node .conditional parts
  | .node .array parts => parts
  | _ => []

/-- The parts of a tree whose values it uses. -/
def consumed : Tree → List Tree
  | .node .program _ | .node .block _ | .node .expressionStatement _ => []
  | .node .conditional parts => parts.take 1
  | tree => tree.operands

/-- A part whose value is used is evaluated. -/
theorem mem_operands_of_mem_consumed {tree part : Tree} (member : part ∈ tree.consumed) :
    part ∈ tree.operands := by
  unfold consumed at member
  split at member
  · cases member
  · cases member
  · cases member
  · exact List.mem_of_mem_take member
  · exact member

/-- A fault that a tree leads to by its own shape. -/
inductive Flaw : Tree → Fault → Prop
  | noChild {label : Label} : label ∈ [.returnStatement, .expressionStatement] →
      Flaw (.node label []) .childMissing
  | notTwo {label : Label} {parts : List Tree} :
      label ∈ [.letStatement, .unary, .index, .function, .call] →
      (∀ first second, parts ≠ [first, second]) →
      Flaw (.node label parts) (.childCount true 2 parts.length)
  | notThree {parts : List Tree} : (∀ first second third, parts ≠ [first, second, third]) →
      Flaw (.node .binary parts) (.childCount true 3 parts.length)
  | belowTwo {parts : List Tree} : (∀ first second rest, parts ≠ first :: second :: rest) →
      Flaw (.node .conditional parts) (.childCount false 2 parts.length)
  | noPair {parts : List Tree} {pair : Tree} : pair ∈ parts →
      (∀ first second, pair.children ≠ [first, second]) →
      Flaw (.node .hash parts) (.childCount true 2 pair.children.length)
  | noName {name value : Tree} {fault : Fault} : name.tokenText = .error fault →
      Flaw (.node .letStatement [name, value]) fault
  | noUnary {operator right : Tree} {fault : Fault} : operator.tokenText = .error fault →
      Flaw (.node .unary [operator, right]) fault
  | noBinary {left operator right : Tree} {fault : Fault} : operator.tokenText = .error fault →
      Flaw (.node .binary [left, operator, right]) fault
  | noToken {label : Label} {parts : List Tree} {fault : Fault} :
      label ∈ [.identifier, .integer, .string, .boolean] →
      tokenText (.node label parts) = .error fault → Flaw (.node label parts) fault
  | misread {parts : List Tree} {text : String} {reason : Number.Misread} :
      tokenText (.node .integer parts) = .ok text → Number.read text = .error reason →
      Flaw (.node .integer parts) (.misread reason)

end Tree

end Scriptlet
