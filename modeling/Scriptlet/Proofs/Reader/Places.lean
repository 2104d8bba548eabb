/-
**The reader does not look at places.**

* `Reader.State.unplaced`, `Reader.Reply.unplaced`: a state and a reply without the places of the
  tokens in them.

Main statement: `State.take_unplaced`, the reply to a token, its places left out, is the reply of
the state without places to the token without its place; and the same kinds are awaited
(`State.awaited_unplaced`).
-/
import Scriptlet.Proofs.Tree.Unplaced
import Scriptlet.Reader.Step

namespace Scriptlet.Reader

/-- An open construct without the places of its tokens. -/
@[simp] def Frame.unplaced : Frame → Frame
  | .statements done => .statements (done.map Tree.unplaced)
  | .binding name => .binding name.unplaced
  | .returning => .returning
  | .unary operator => .unary operator.unplaced
  | .binary left operator => .binary left.unplaced operator.unplaced
  | .group => .group
  | .arguments callee done => .arguments callee.unplaced (done.map Tree.unplaced)
  | .index container => .index container.unplaced
  | .array done => .array (done.map Tree.unplaced)
  | .key done => .key (done.map Tree.unplaced)
  | .value done first => .value (done.map Tree.unplaced) first.unplaced
  | .condition => .condition
  | .consequence test => .consequence test.unplaced
  | .alternative test first => .alternative test.unplaced first.unplaced
  | .body parameters => .body (parameters.map Token.unplaced)

/-- What has just been read without the places of its tokens. -/
@[simp] def Point.unplaced : Point → Point
  | .complete tree => .complete tree.unplaced
  | .closed block => .closed block.unplaced
  | .letName name => .letName name.unplaced
  | .parameter done => .parameter (done.map Token.unplaced)
  | .parameterComma done => .parameterComma (done.map Token.unplaced)
  | point => point

/-- A state without the places of its tokens. -/
@[simp] def State.unplaced (state : State) : State :=
  ⟨state.frames.map Frame.unplaced, state.point.unplaced⟩

/-- A reply without the places of its tokens. -/
@[simp] def Reply.unplaced : Reply → Reply
  | .next state => .next state.unplaced
  | .finished program => .finished program.unplaced
  | .refused expected => .refused expected

/-- A token keeps its kind. -/
@[simp] theorem kind_unplaced (token : Token) : token.unplaced.kind = token.kind := rfl

/-- Leaves lose the places of their tokens. -/
theorem map_leaf_unplaced (tokens : List Token) :
    (tokens.map Tree.leaf).map Tree.unplaced = (tokens.map Token.unplaced).map .leaf := by
  rw [List.map_map, List.map_map]
  rfl

/-! ### What is awaited -/

theorem operandAwaited_unplaced (frames : List Frame) :
    operandAwaited (frames.map Frame.unplaced) = operandAwaited frames := by
  cases frames with
  | nil => rfl
  | cons frame outer =>
    cases frame with
    | arguments _ done | array done | key done => cases done <;> rfl
    | _ => rfl

theorem statementAwaited_unplaced (within : List Frame) :
    statementAwaited (within.map Frame.unplaced) = statementAwaited within := by
  cases within <;> rfl

/-- The same kinds are awaited. -/
theorem State.awaited_unplaced (state : State) : state.unplaced.awaited = state.awaited := by
  obtain ⟨frames, point⟩ := state
  cases point with
  | opened =>
    cases frames with
    | nil => rfl
    | cons frame outer => exact statementAwaited_unplaced outer
  | operand => exact operandAwaited_unplaced frames
  | _ => rfl

/-! ### The parts of a reply -/

theorem absorb_unplaced (least : Nat) (frames : List Frame) (operand : Tree) :
    absorb least (frames.map Frame.unplaced) operand.unplaced =
      ((absorb least frames operand).1.map Frame.unplaced,
        (absorb least frames operand).2.unplaced) := by
  induction frames generalizing operand with
  | nil => rfl
  | cons frame outer ih =>
    cases frame with
    | unary operator => exact ih (.node .unary [.leaf operator, operand])
    | binary left operator =>
      show absorb least (.binary left.unplaced operator.unplaced :: _) _ = _
      by_cases binds : least ≤ strength operator.kind
      · have alike : least ≤ strength operator.unplaced.kind := binds
        rw [absorb_of_le binds, absorb_of_le alike]
        exact ih (.node .binary [left, .leaf operator, operand])
      · have loose : strength operator.kind < least := Nat.lt_of_not_le binds
        have alike : strength operator.unplaced.kind < least := loose
        rw [absorb_of_lt loose, absorb_of_lt alike]
        rfl
    | _ => rfl

theorem startOperand_unplaced (frames : List Frame) (token : Token) :
    startOperand (frames.map Frame.unplaced) token.unplaced =
      (startOperand frames token).map State.unplaced := by
  obtain ⟨kind, text, place, stop⟩ := token
  cases kind <;> rfl

theorem takeOperand_unplaced (frames : List Frame) (token : Token) :
    takeOperand (frames.map Frame.unplaced) token.unplaced =
      (takeOperand frames token).unplaced := by
  unfold takeOperand
  rw [startOperand_unplaced, operandAwaited_unplaced]
  cases startOperand frames token with
  | some state => rfl
  | none =>
    obtain ⟨kind, text, place, stop⟩ := token
    cases frames with
    | nil => rfl
    | cons frame outer =>
      cases frame with
      | arguments callee done => cases done <;> cases kind <;> rfl
      | array done => cases done <;> cases kind <;> rfl
      | key done => cases done <;> cases kind <;> rfl
      | _ => rfl

theorem takeStatement_unplaced (done : List Tree) (within : List Frame) (token : Token) :
    takeStatement (done.map Tree.unplaced) (within.map Frame.unplaced) token.unplaced =
      (takeStatement done within token).unplaced := by
  by_cases other : token.kind ∈ [.letWord, .returnWord, .closeBrace, .ending]
  · obtain ⟨kind, text, place, stop⟩ := token
    simp only [List.mem_cons, List.not_mem_nil, or_false] at other
    rcases other with rfl | rfl | rfl | rfl
    · rfl
    · rfl
    · cases within <;> simp [takeStatement, Token.unplaced, statementAwaited]
    · cases within <;> simp [takeStatement, Token.unplaced, statementAwaited]
  · have started := startOperand_unplaced (.statements done :: within) token
    simp only [List.map_cons, Frame.unplaced] at started
    have alike : token.unplaced.kind ∉ [.letWord, .returnWord, .closeBrace, .ending] := other
    rw [takeStatement_eq other, takeStatement_eq alike, started, statementAwaited_unplaced]
    cases startOperand (.statements done :: within) token <;> rfl

theorem endStatement_unplaced (done : List Tree) (within : List Frame) (statement : Tree)
    (token : Token) :
    endStatement (done.map Tree.unplaced) (within.map Frame.unplaced) statement.unplaced
      token.unplaced = (endStatement done within statement token).unplaced := by
  have further := takeStatement_unplaced (done ++ [statement]) within token
  simp only [List.map_append, List.map_cons, List.map_nil] at further
  unfold endStatement
  simp only [kind_unplaced, further]
  split
  · simp
  · split <;> rfl

theorem endExpression_unplaced (frames : List Frame) (tree : Tree) (token : Token) :
    endExpression (frames.map Frame.unplaced) tree.unplaced token.unplaced =
      (endExpression frames tree token).unplaced := by
  have ended := fun done within statement => endStatement_unplaced done within statement token
  cases frames with
  | nil => rfl
  | cons frame outer =>
    cases frame with
    | statements done => exact ended done outer (.node .expressionStatement [tree])
    | binding name =>
      cases outer with
      | nil => rfl
      | cons frame within =>
        cases frame with
        | statements done => exact ended done within (.node .letStatement [.leaf name, tree])
        | _ => rfl
    | returning =>
      cases outer with
      | nil => rfl
      | cons frame within =>
        cases frame with
        | statements done => exact ended done within (.node .returnStatement [tree])
        | _ => rfl
    | arguments callee done | array done | value done key =>
      obtain ⟨kind, text, place, stop⟩ := token
      cases kind with
      | comma | closeParen | closeBracket | closeBrace => simp [endExpression, Token.unplaced]
      | _ => cases done <;> rfl
    | group | index | key | condition =>
      obtain ⟨kind, text, place, stop⟩ := token
      cases kind <;> rfl
    | _ => rfl

theorem endOperand_unplaced (frames : List Frame) (operand : Tree) (token : Token) :
    endOperand (frames.map Frame.unplaced) operand.unplaced token.unplaced =
      (endOperand frames operand token).unplaced := by
  have ended := fun frames tree => endExpression_unplaced frames tree token
  unfold endOperand
  simp only [absorb_unplaced, kind_unplaced, ended]
  split
  · rfl
  · rfl
  · split <;> rfl

theorem endBlock_unplaced (frames : List Frame) (block : Tree) (token : Token) :
    endBlock (frames.map Frame.unplaced) block.unplaced token.unplaced =
      (endBlock frames block token).unplaced := by
  have ended := fun frames operand => endOperand_unplaced frames operand token
  by_cases noElse : token.kind = .elseWord
  · obtain ⟨kind, text, place, stop⟩ := token
    cases noElse
    cases frames with
    | nil => rfl
    | cons frame outer => cases frame <;> rfl
  · have noElse' : token.unplaced.kind ≠ .elseWord := noElse
    cases frames with
    | nil => simp [endBlock]
    | cons frame outer =>
      cases frame with
      | consequence condition =>
        rw [endBlock_consequence noElse]
        exact (endBlock_consequence noElse').trans (ended outer (.node .conditional [condition, block]))
      | alternative condition consequence =>
        rw [endBlock_alternative noElse]
        exact (endBlock_alternative noElse').trans
          (ended outer (.node .conditional [condition, consequence, block]))
      | body parameters =>
        have made := ended outer (.node .function [.node .parameters (parameters.map .leaf), block])
        rw [endBlock_body noElse, ← made]
        simp only [Tree.node_unplaced, List.map_cons, List.map_nil, map_leaf_unplaced]
        exact endBlock_body noElse'
      | _ => simp [endBlock]

/-! ### Whole replies -/

/-- **The reader does not look at places.** -/
theorem State.take_unplaced (state : State) (token : Token) :
    state.unplaced.take token.unplaced = (state.take token).unplaced := by
  obtain ⟨frames, point⟩ := state
  cases point with
  | opened | separated =>
    cases frames with
    | nil => rfl
    | cons frame within =>
      cases frame with
      | statements done => exact takeStatement_unplaced done within token
      | _ => rfl
  | operand => exact takeOperand_unplaced frames token
  | complete operand => exact endOperand_unplaced frames operand token
  | closed block => exact endBlock_unplaced frames block token
  | parameterComma done =>
    obtain ⟨kind, text, place, stop⟩ := token
    cases kind with
    | identifier => simp [State.take, Token.unplaced]
    | _ => rfl
  | letWord | letName | fnWord | ifWord | parametersOpened | parameter | blockAwaited =>
    obtain ⟨kind, text, place, stop⟩ := token
    cases kind <;> rfl

end Scriptlet.Reader
