/-
**The reader between two tokens.**

* `Frame`: a construct that has been opened and waits for more, with what it has so far.
* `Point`: what has just been read, and so what may follow.
* `State`: a point within open constructs, innermost first.
* `State.awaited`: the kinds of token that may follow.

`State.awaited` is what is looked for in the text. After a complete operand it holds whatever may
follow an operand anywhere, so a token may be looked for, found, and still not fit the construct
that is open; `State.take` in the next module refuses it then.
-/
import Scriptlet.Tree

namespace Scriptlet.Reader

/-- A construct that waits for more. -/
inductive Frame where
  /-- Statements of the program or of a block. -/
  | statements (done : List Tree)
  /-- `let name =`, before its value. -/
  | binding (name : Token)
  /-- `return`, before its value. -/
  | returning
  /-- A unary operator, before its operand. -/
  | unary (operator : Token)
  /-- A left operand and its operator, before the right operand. -/
  | binary (left : Tree) (operator : Token)
  /-- An opening parenthesis. -/
  | group
  /-- A function called, and the arguments so far. -/
  | arguments (callee : Tree) (done : List Tree)
  /-- An indexed container, before the index. -/
  | index (container : Tree)
  /-- An array, and the elements so far. -/
  | array (done : List Tree)
  /-- A hash, and the pairs so far, before a key. -/
  | key (done : List Tree)
  /-- A hash, the pairs so far and a key, before its value. -/
  | value (done : List Tree) (key : Tree)
  /-- `if (`, before the condition. -/
  | condition
  /-- `if` and a condition, before the block. -/
  | consequence (condition : Tree)
  /-- `if`, a condition, a block and `else`, before the other block. -/
  | alternative (condition consequence : Tree)
  /-- `fn` and parameters, before the body. -/
  | body (parameters : List Token)
  deriving Repr

/-- What has just been read. -/
inductive Point where
  /-- The start of a program or of a block. -/
  | opened
  /-- A semicolon at the end of a statement. -/
  | separated
  /-- Something that an operand must follow. -/
  | operand
  /-- A complete operand. -/
  | complete (tree : Tree)
  /-- The closing brace of a block. -/
  | closed (block : Tree)
  /-- `let`. -/
  | letWord
  /-- `let` and a name. -/
  | letName (name : Token)
  /-- `fn`. -/
  | fnWord
  /-- `if`. -/
  | ifWord
  /-- `fn (`. -/
  | parametersOpened
  /-- A parameter. -/
  | parameter (done : List Token)
  /-- A comma after parameters. -/
  | parameterComma (done : List Token)
  /-- Something that a block must follow. -/
  | blockAwaited
  deriving Repr

/-- The reader between two tokens. -/
structure State where
  frames : List Frame
  point : Point
  deriving Repr

/-- The kinds that start an operand. -/
def operandStart : List Kind :=
  [.bang, .falseWord, .fnWord, .identifier, .ifWord, .integer, .openBrace, .openParen,
    .openBracket, .minus, .string, .trueWord]

/-- The kinds that start a statement. -/
def statementStart : List Kind :=
  .letWord :: .returnWord :: operandStart

/-- The kinds that may follow a statement, in a program or in a block. -/
def afterStatement : List Kind :=
  .ending :: .closeBrace :: statementStart

/-- The kinds that may follow a complete operand somewhere. -/
def afterOperand : List Kind :=
  [.equals, .differs, .less, .greater, .plus, .star, .slash, .colon, .comma, .semicolon,
    .closeParen, .closeBracket] ++ afterStatement

/-- The kinds that may follow the statements so far: within a block its closing brace, otherwise
the end. -/
def statementAwaited (within : List Frame) : List Kind :=
  (if within.isEmpty then .ending else .closeBrace) :: statementStart

/-- The kinds that may follow where an operand is awaited: an empty list of arguments, array or
hash may be closed. -/
def operandAwaited : List Frame → List Kind
  | .arguments _ [] :: _ => .closeParen :: operandStart
  | .array [] :: _ => .closeBracket :: operandStart
  | .key [] :: _ => .closeBrace :: operandStart
  | _ => operandStart

/-- The kinds of token that may follow. -/
def State.awaited (state : State) : List Kind :=
  match state.point with
  | .opened => statementAwaited state.frames.tail
  | .separated => afterStatement
  | .operand => operandAwaited state.frames
  | .complete _ => afterOperand
  | .closed _ => .elseWord :: afterOperand
  | .letWord => [.identifier]
  | .letName _ => [.assign]
  | .fnWord | .ifWord => [.openParen]
  | .parametersOpened => [.identifier, .closeParen]
  | .parameter _ => [.comma, .closeParen]
  | .parameterComma _ => [.identifier]
  | .blockAwaited => [.openBrace]

/-- The kinds that are looked for in the text as they are: the words of the language are looked
for as names, and the end is not looked for. -/
def State.sought (state : State) : List Kind :=
  state.awaited.filter fun kind => !kind.isWord && kind != .ending

/-- Words are awaited only together with names. -/
theorem identifier_mem_awaited {state : State} {kind : Kind} (isWord : kind.isWord = true)
    (awaited : kind ∈ state.awaited) : .identifier ∈ state.awaited := by
  obtain ⟨frames, point⟩ := state
  have start : Kind.identifier ∈ operandStart := by decide
  cases point with
  | opened => simp [State.awaited, statementAwaited, statementStart, start]
  | separated => simp [State.awaited, afterStatement, statementStart, start]
  | operand =>
    simp only [State.awaited]
    unfold operandAwaited
    split <;> simp [start]
  | complete tree => simp [State.awaited, afterOperand, afterStatement, statementStart, start]
  | closed block => simp [State.awaited, afterOperand, afterStatement, statementStart, start]
  | letWord => simp [State.awaited]
  | parametersOpened => simp [State.awaited]
  | parameterComma done => simp [State.awaited]
  | letName name | fnWord | ifWord | parameter done | blockAwaited =>
    simp only [State.awaited, List.mem_cons, List.not_mem_nil, or_false] at awaited
    rcases awaited with rfl | rfl <;> exact absurd isWord (by decide)

end Scriptlet.Reader
