/-
**The reader's step from token to token.**

* `State.take`: what the reader does with the next token: it goes on, it has finished a program at
  the end of the text, or it refuses the token and tells what it expected.
* `absorb`: the operators before a complete operand that bind at least as strongly as what follows
  take it as their right operand. Binary operators of one strength associate to the left, and
  unary ones bind more strongly than any of them.

A call or an index after a complete operand always belongs to that operand, and so does a minus
sign: it is never the start of the next statement.
-/
import Scriptlet.Reader.State

namespace Scriptlet.Reader

/-- What the reader does with a token. -/
inductive Reply where
  | next (state : State)
  | finished (program : Tree)
  | refused (expected : List Kind)
  deriving Repr

/-- How strongly a binary operator binds; zero if the kind is none. -/
def strength : Kind → Nat
  | .equals | .differs => 1
  | .less | .greater => 2
  | .plus | .minus => 3
  | .star | .slash => 4
  | _ => 0

/-- The frames and the operand left when the operators that bind at least as strongly as `least`
have taken their right operand. -/
def absorb (least : Nat) : List Frame → Tree → List Frame × Tree
  | .unary operator :: frames, operand =>
    absorb least frames (.node .unary [.leaf operator, operand])
  | .binary left operator :: frames, operand =>
    if least ≤ strength operator.kind then
      absorb least frames (.node .binary [left, .leaf operator, operand])
    else (.binary left operator :: frames, operand)
  | frames, operand => (frames, operand)

/-- An operator that binds strongly enough takes the operand. -/
theorem absorb_of_le {least : Nat} {left operand : Tree} {operator : Token} {frames : List Frame}
    (binds : least ≤ strength operator.kind) :
    absorb least (.binary left operator :: frames) operand =
      absorb least frames (.node .binary [left, .leaf operator, operand]) :=
  if_pos binds

/-- An operator that binds less strongly waits on. -/
theorem absorb_of_lt {least : Nat} {left operand : Tree} {operator : Token} {frames : List Frame}
    (loose : strength operator.kind < least) :
    absorb least (.binary left operator :: frames) operand =
      (.binary left operator :: frames, operand) :=
  if_neg (Nat.not_le_of_lt loose)

/-- The state after a token that starts an operand. -/
def startOperand (frames : List Frame) (token : Token) : Option State :=
  match token.kind with
  | .integer => some ⟨frames, .complete (.node .integer [.leaf token])⟩
  | .string => some ⟨frames, .complete (.node .string [.leaf token])⟩
  | .trueWord | .falseWord => some ⟨frames, .complete (.node .boolean [.leaf token])⟩
  | .identifier => some ⟨frames, .complete (.node .identifier [.leaf token])⟩
  | .openParen => some ⟨.group :: frames, .operand⟩
  | .openBracket => some ⟨.array [] :: frames, .operand⟩
  | .openBrace => some ⟨.key [] :: frames, .operand⟩
  | .fnWord => some ⟨frames, .fnWord⟩
  | .ifWord => some ⟨frames, .ifWord⟩
  | .bang | .minus => some ⟨.unary token :: frames, .operand⟩
  | _ => none

/-- The reply where an operand is awaited. -/
def takeOperand (frames : List Frame) (token : Token) : Reply :=
  match startOperand frames token with
  | some state => .next state
  | none =>
    match frames, token.kind with
    | .arguments callee [] :: outer, .closeParen =>
      .next ⟨outer, .complete (.node .call [callee, .node .arguments []])⟩
    | .array [] :: outer, .closeBracket => .next ⟨outer, .complete (.node .array [])⟩
    | .key [] :: outer, .closeBrace => .next ⟨outer, .complete (.node .hash [])⟩
    | _, _ => .refused (operandAwaited frames)

/-- The reply where a statement is awaited after the ones done, within a block or not. -/
def takeStatement (done : List Tree) (within : List Frame) (token : Token) : Reply :=
  let frames := .statements done :: within
  match token.kind with
  | .letWord => .next ⟨frames, .letWord⟩
  | .returnWord => .next ⟨.returning :: frames, .operand⟩
  | .closeBrace =>
    if within.isEmpty then .refused (statementAwaited within)
    else .next ⟨within, .closed (.node .block done)⟩
  | .ending =>
    if within.isEmpty then .finished (.node .program done)
    else .refused (statementAwaited within)
  | _ =>
    match startOperand frames token with
    | some state => .next state
    | none => .refused (statementAwaited within)

/-- A token that no statement but an expression may start with starts an operand, or is refused. -/
theorem takeStatement_eq {done : List Tree} {within : List Frame} {token : Token}
    (other : token.kind ∉ [.letWord, .returnWord, .closeBrace, .ending]) :
    takeStatement done within token =
      match startOperand (.statements done :: within) token with
      | some state => .next state
      | none => .refused (statementAwaited within) := by
  unfold takeStatement
  split
  next kind => simp [kind] at other
  next kind => simp [kind] at other
  next kind => simp [kind] at other
  next kind => simp [kind] at other
  · rfl

/-- The reply after a statement that may end here. -/
def endStatement (done : List Tree) (within : List Frame) (statement : Tree) (token : Token) :
    Reply :=
  let done := done ++ [statement]
  if token.kind = .semicolon then .next ⟨.statements done :: within, .separated⟩
  else if token.kind ∈ afterStatement then takeStatement done within token
  else .refused (.semicolon :: afterStatement)

/-- The reply after a complete expression within the innermost construct that is no operator. -/
def endExpression (frames : List Frame) (tree : Tree) (token : Token) : Reply :=
  match frames with
  | .statements done :: within =>
    endStatement done within (.node .expressionStatement [tree]) token
  | .binding name :: .statements done :: within =>
    endStatement done within (.node .letStatement [.leaf name, tree]) token
  | .returning :: .statements done :: within =>
    endStatement done within (.node .returnStatement [tree]) token
  | .group :: outer =>
    match token.kind with
    | .closeParen => .next ⟨outer, .complete tree⟩
    | _ => .refused [.closeParen]
  | .arguments callee done :: outer =>
    match token.kind with
    | .comma => .next ⟨.arguments callee (done ++ [tree]) :: outer, .operand⟩
    | .closeParen =>
      .next ⟨outer, .complete (.node .call [callee, .node .arguments (done ++ [tree])])⟩
    | .closeBracket => .refused [.comma, .closeParen]
    | _ => .refused (if done.isEmpty then [.comma, .closeParen]
        else [.comma, .closeParen, .closeBracket])
  | .index container :: outer =>
    match token.kind with
    | .closeBracket => .next ⟨outer, .complete (.node .index [container, tree])⟩
    | _ => .refused [.closeBracket]
  | .array done :: outer =>
    match token.kind with
    | .comma => .next ⟨.array (done ++ [tree]) :: outer, .operand⟩
    | .closeBracket => .next ⟨outer, .complete (.node .array (done ++ [tree]))⟩
    | .closeParen => .refused [.comma, .closeBracket]
    | _ => .refused (if done.isEmpty then [.comma, .closeBracket]
        else [.comma, .closeParen, .closeBracket])
  | .key done :: outer =>
    match token.kind with
    | .colon => .next ⟨.value done tree :: outer, .operand⟩
    | _ => .refused [.colon]
  | .value done key :: outer =>
    let done := done ++ [.node .pair [key, tree]]
    match token.kind with
    | .comma => .next ⟨.key done :: outer, .operand⟩
    | .closeBrace => .next ⟨outer, .complete (.node .hash done)⟩
    | _ => .refused [.comma, .closeBrace]
  | .condition :: outer =>
    match token.kind with
    | .closeParen => .next ⟨.consequence tree :: outer, .blockAwaited⟩
    | _ => .refused [.closeParen]
  | _ => .refused []

/-- The reply after a complete operand. -/
def endOperand (frames : List Frame) (operand : Tree) (token : Token) : Reply :=
  match token.kind with
  | .openParen => .next ⟨.arguments operand [] :: frames, .operand⟩
  | .openBracket => .next ⟨.index operand :: frames, .operand⟩
  | kind =>
    let (outer, tree) := absorb (strength kind) frames operand
    if strength kind = 0 then endExpression outer tree token
    else .next ⟨.binary tree token :: outer, .operand⟩

/-- The reply after a block. -/
def endBlock (frames : List Frame) (block : Tree) (token : Token) : Reply :=
  match frames, token.kind with
  | .consequence condition :: outer, .elseWord =>
    .next ⟨.alternative condition block :: outer, .blockAwaited⟩
  | _, .elseWord => .refused afterOperand
  | .consequence condition :: outer, _ =>
    endOperand outer (.node .conditional [condition, block]) token
  | .alternative condition consequence :: outer, _ =>
    endOperand outer (.node .conditional [condition, consequence, block]) token
  | .body parameters :: outer, _ =>
    endOperand outer (.node .function [.node .parameters (parameters.map .leaf), block]) token
  | _, _ => .refused []

section Block

variable {outer : List Frame} {block : Tree} {token : Token}

/-- A conditional without an alternative is a complete operand. -/
theorem endBlock_consequence {condition : Tree} (noElse : token.kind ≠ .elseWord) :
    endBlock (.consequence condition :: outer) block token =
      endOperand outer (.node .conditional [condition, block]) token := by
  simp [endBlock]

/-- So is one with an alternative. -/
theorem endBlock_alternative {condition consequence : Tree} (noElse : token.kind ≠ .elseWord) :
    endBlock (.alternative condition consequence :: outer) block token =
      endOperand outer (.node .conditional [condition, consequence, block]) token := by
  simp [endBlock]

/-- So is a function. -/
theorem endBlock_body {parameters : List Token} (noElse : token.kind ≠ .elseWord) :
    endBlock (.body parameters :: outer) block token =
      endOperand outer (.node .function [.node .parameters (parameters.map .leaf), block]) token := by
  simp [endBlock]

end Block

/-- What the reader does with the next token. -/
def State.take (state : State) (token : Token) : Reply :=
  let frames := state.frames
  match state.point with
  | .opened | .separated =>
    match frames with
    | .statements done :: within => takeStatement done within token
    | _ => .refused []
  | .operand => takeOperand frames token
  | .complete operand => endOperand frames operand token
  | .closed block => endBlock frames block token
  | .letWord =>
    match token.kind with
    | .identifier => .next ⟨frames, .letName token⟩
    | _ => .refused [.identifier]
  | .letName name =>
    match token.kind with
    | .assign => .next ⟨.binding name :: frames, .operand⟩
    | _ => .refused [.assign]
  | .fnWord =>
    match token.kind with
    | .openParen => .next ⟨frames, .parametersOpened⟩
    | _ => .refused [.openParen]
  | .ifWord =>
    match token.kind with
    | .openParen => .next ⟨.condition :: frames, .operand⟩
    | _ => .refused [.openParen]
  | .parametersOpened =>
    match token.kind with
    | .identifier => .next ⟨frames, .parameter [token]⟩
    | .closeParen => .next ⟨.body [] :: frames, .blockAwaited⟩
    | _ => .refused [.identifier, .closeParen]
  | .parameter done =>
    match token.kind with
    | .comma => .next ⟨frames, .parameterComma done⟩
    | .closeParen => .next ⟨.body done :: frames, .blockAwaited⟩
    | _ => .refused [.comma, .closeParen]
  | .parameterComma done =>
    match token.kind with
    | .identifier => .next ⟨frames, .parameter (done ++ [token])⟩
    | _ => .refused [.identifier]
  | .blockAwaited =>
    match token.kind with
    | .openBrace => .next ⟨.statements [] :: frames, .opened⟩
    | _ => .refused [.openBrace]

/-- The reader before a program. -/
def State.initial : State :=
  ⟨[.statements []], .opened⟩

end Scriptlet.Reader
