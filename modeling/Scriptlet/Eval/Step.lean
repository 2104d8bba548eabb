/-
**One level of evaluation.**

* `step`: what a tree yields on a scope, where `evaluate` gives what its parts yield and `apply`
  what a callee yields for its arguments. Parts are evaluated from left to right. A part that
  yields a signal ends the evaluation of the whole, which then yields that signal; only a program,
  and the call of a function, take a returned operand out of it.

Every rule for one kind of node is a definition of its own below.
-/
import Scriptlet.Eval.Call

namespace Scriptlet.Eval

section

variable (evaluate : Tree → ScopeId → Eval Value) (apply : Value → List Value → Eval Value)
  (scope : ScopeId)

/-- The last value of statements; a signal ends them. -/
def statements (last : Value) : List Tree → Eval Value
  | [] => return last
  | statement :: rest => do
    let value ← evaluate statement scope
    unlessSignal value (statements value rest)

/-- The values of trees from left to right, or the first signal alone. -/
def values : List Tree → Eval (Value ⊕ List Value)
  | [] => return .inr []
  | tree :: rest => do
    let value ← evaluate tree scope
    if value.isSignal then return .inl value
    else match ← values rest with
      | .inl signal => return .inl signal
      | .inr others => return .inr (value :: others)

/-- The value of the one part that a statement has. -/
def firstPart : List Tree → Eval Value
  | part :: _ => evaluate part scope
  | [] => throw .childMissing

/-- A name bound to a value on the scope itself. -/
def binding : List Tree → Eval Value
  | [name, part] => do
    let value ← evaluate part scope
    unlessSignal value do
      let name ← name.tokenText
      modify fun store => store.bind scope name value
      return .nothing
  | parts => throw (.childCount true 2 parts.length)

/-- An operand on its way to the end of the function. -/
def returning (parts : List Tree) : Eval Value := do
  let value ← firstPart evaluate scope parts
  unlessSignal value (identified fun identity => .returned identity value)

/-- The value of a name: of the nearest scope that binds it, or a builtin. -/
def identifier (name : String) : Eval Value := do
  match (← get).lookup? scope name with
  | some value => return value
  | none =>
    match Builtin.ofName? name with
    | some builtin => return .builtin builtin
    | none => complain (.unknownName name)

/-- A unary operator and its operand. -/
def unary : List Tree → Eval Value
  | [operator, part] => do
    let right ← evaluate part scope
    unlessSignal right do applyUnary (← operator.tokenText) right
  | parts => throw (.childCount true 2 parts.length)

/-- A binary operator and its operands. -/
def binary : List Tree → Eval Value
  | [first, operator, second] => do
    let left ← evaluate first scope
    unlessSignal left do
      let right ← evaluate second scope
      unlessSignal right do applyBinary (← operator.tokenText) left right
  | parts => throw (.childCount true 3 parts.length)

/-- A container and an index. -/
def index : List Tree → Eval Value
  | [first, second] => do
    let container ← evaluate first scope
    unlessSignal container do
      let position ← evaluate second scope
      unlessSignal position (applyIndex container position)
  | parts => throw (.childCount true 2 parts.length)

/-- The branch that a condition chooses; null where there is none or it yields no value. -/
def conditional : List Tree → Eval Value
  | condition :: consequence :: rest => do
    let value ← evaluate condition scope
    unlessSignal value do
      if value.isTruthy then return (← evaluate consequence scope).orNull
      else match rest.headD .absent with
        | .absent => return .null
        | alternative => return (← evaluate alternative scope).orNull
  | parts => throw (.childCount false 2 parts.length)

/-- A function made in the scope. -/
def function : List Tree → Eval Value
  | [parameters, body] =>
    let names := (parameters.children.filterMap Tree.token?).map Token.text
    identified fun identity => .function identity names body scope
  | parts => throw (.childCount true 2 parts.length)

/-- A callee and its arguments. -/
def application : List Tree → Eval Value
  | [first, second] => do
    let callee ← evaluate first scope
    unlessSignal callee do
      match ← values evaluate scope second.children with
      | .inl signal => return signal
      | .inr arguments => apply callee arguments
  | parts => throw (.childCount true 2 parts.length)

/-- The elements of an array. -/
def array (parts : List Tree) : Eval Value := do
  match ← values evaluate scope parts with
  | .inl signal => return signal
  | .inr elements => identified fun identity => .array identity elements

/-- The keys and values of a hash, added in turn to the pairs so far. -/
def pairs (done : List (Value × Value)) : List Tree → Eval Value
  | [] => identified fun identity => .hash identity done
  | pair :: rest =>
    match pair.children with
    | [first, second] => do
      let key ← evaluate first scope
      unlessSignal key do
        match key.key? with
        | none => complain (.notAKey (← tagOf key))
        | some _ =>
          let value ← evaluate second scope
          unlessSignal value (pairs (Value.putPair key value done) rest)
    | parts => throw (.childCount true 2 parts.length)

/-- What a tree yields on a scope, where `evaluate` gives what its parts yield and `apply` what a
callee yields for its arguments. -/
def step (tree : Tree) : Eval Value :=
  match tree with
  | .leaf _ | .absent => return .nothing
  | .node label parts =>
    match label with
    | .program => do return (← statements evaluate scope .nothing parts).operand
    | .block => statements evaluate scope .nothing parts
    | .expressionStatement => firstPart evaluate scope parts
    | .letStatement => binding evaluate scope parts
    | .returnStatement => returning evaluate scope parts
    | .identifier => do identifier scope (← tree.tokenText)
    | .integer => do
      match Number.read (← tree.tokenText) with
      | .ok number => return .integer number
      | .error reason => throw (.misread reason)
    | .string => do
      let text ← tree.tokenText
      identified fun identity => .string identity text
    | .boolean => do return .boolean ((← tree.tokenText) == "true")
    | .unary => unary evaluate scope parts
    | .binary => binary evaluate scope parts
    | .index => index evaluate scope parts
    | .conditional => conditional evaluate scope parts
    | .function => function scope parts
    | .call => application evaluate apply scope parts
    | .array => array evaluate scope parts
    | .hash => pairs evaluate scope [] parts
    | .parameters | .arguments | .pair | .other _ => return .nothing

end

end Scriptlet.Eval
