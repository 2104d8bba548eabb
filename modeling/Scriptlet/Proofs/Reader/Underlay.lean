/-
**The reader does not look at the statements before.**

* `Reader.underlay`: open constructs in a program that has more statements at its start.
* `Reader.State.underlay`, `Reader.Reply.underlay`: a state and a reply in such a program.

Main statement: `State.Placed.take_underlay`, the reply to a token in a program that has more
statements at its start is the reply without them, with these statements put in front; and the same
kinds are awaited (`State.awaited_underlay`).
-/
import Scriptlet.Proofs.Reader.Completion

namespace Scriptlet.Reader

variable (earlier : List Tree)

/-- The statements of the program itself come after the earlier ones. -/
def behind (within : List Frame) (done : List Tree) : List Tree :=
  if within.isEmpty then earlier ++ done else done

/-- Open constructs with earlier statements in the program. -/
def underlay : List Frame → List Frame
  | [] => []
  | .statements done :: within => .statements (behind earlier within done) :: underlay within
  | frame :: within => frame :: underlay within

/-- A state with earlier statements in the program. -/
def State.underlay (state : State) : State :=
  ⟨Reader.underlay earlier state.frames, state.point⟩

/-- A reply with earlier statements in the program. -/
def Reply.underlay : Reply → Reply
  | .next state => .next (state.underlay earlier)
  | .finished program => .finished (.node .program (earlier ++ program.children))
  | .refused expected => .refused expected

variable {earlier}

@[simp] theorem underlay_isEmpty (frames : List Frame) :
    (underlay earlier frames).isEmpty = frames.isEmpty := by
  cases frames with
  | nil => rfl
  | cons frame within => cases frame <;> rfl

/-- Statements that are added come last. -/
theorem behind_append (within : List Frame) (done more : List Tree) :
    behind earlier within (done ++ more) = behind earlier within done ++ more := by
  unfold behind
  split
  · rw [List.append_assoc]
  · rfl

/-- Within something, the statements are those of a block. -/
theorem behind_eq {within : List Frame} (inner : within ≠ []) (done : List Tree) :
    behind earlier within done = done := by
  rw [behind, if_neg (by simpa using inner)]

/-! ### What is awaited -/

theorem statementAwaited_underlay (within : List Frame) :
    statementAwaited (underlay earlier within) = statementAwaited within := by
  rw [statementAwaited, underlay_isEmpty]
  rfl

theorem operandAwaited_underlay (frames : List Frame) :
    operandAwaited (underlay earlier frames) = operandAwaited frames := by
  cases frames with
  | nil => rfl
  | cons frame within =>
    cases frame with
    | arguments _ done | array done | key done => cases done <;> rfl
    | _ => rfl

/-- The same kinds are awaited. -/
theorem State.awaited_underlay (state : State) :
    (state.underlay earlier).awaited = state.awaited := by
  obtain ⟨frames, point⟩ := state
  cases point with
  | opened =>
    cases frames with
    | nil => rfl
    | cons frame within => cases frame <;> exact statementAwaited_underlay within
  | operand => exact operandAwaited_underlay frames
  | _ => rfl

/-! ### The parts of a reply -/

section Parts

variable (earlier)

theorem absorb_underlay (least : Nat) (frames : List Frame) (operand : Tree) :
    absorb least (underlay earlier frames) operand =
      (underlay earlier (absorb least frames operand).1, (absorb least frames operand).2) := by
  induction frames generalizing operand with
  | nil => rfl
  | cons frame within ih =>
    cases frame with
    | unary operator => exact ih (.node .unary [.leaf operator, operand])
    | binary left operator =>
      show absorb least (.binary left operator :: _) _ = _
      by_cases binds : least ≤ strength operator.kind
      · rw [absorb_of_le binds, absorb_of_le binds]
        exact ih (.node .binary [left, .leaf operator, operand])
      · rw [absorb_of_lt (Nat.lt_of_not_le binds), absorb_of_lt (Nat.lt_of_not_le binds)]
        rfl
    | _ => rfl

theorem startOperand_underlay (frames : List Frame) (token : Token) :
    startOperand (underlay earlier frames) token =
      (startOperand frames token).map (State.underlay earlier) := by
  unfold startOperand
  split <;> rfl

theorem takeOperand_underlay (frames : List Frame) (token : Token) :
    takeOperand (underlay earlier frames) token =
      (takeOperand frames token).underlay earlier := by
  unfold takeOperand
  rw [startOperand_underlay, operandAwaited_underlay]
  cases startOperand frames token with
  | some state => rfl
  | none =>
    obtain ⟨kind, text, place, stop⟩ := token
    cases frames with
    | nil => rfl
    | cons frame within =>
      cases frame with
      | arguments callee done => cases done <;> cases kind <;> rfl
      | array done => cases done <;> cases kind <;> rfl
      | key done => cases done <;> cases kind <;> rfl
      | _ => rfl

theorem takeStatement_underlay (done : List Tree) (within : List Frame) (token : Token) :
    takeStatement (behind earlier within done) (underlay earlier within) token =
      (takeStatement done within token).underlay earlier := by
  by_cases other : token.kind ∈ [.letWord, .returnWord, .closeBrace, .ending]
  · simp only [List.mem_cons, List.not_mem_nil, or_false] at other
    rcases other with kind | kind | kind | kind
    · simp only [takeStatement, kind]
      rfl
    · simp only [takeStatement, kind]
      rfl
    · cases within with
      | nil => simp [takeStatement, kind, underlay, Reply.underlay]
      | cons => simp [takeStatement, kind, behind_eq, Reply.underlay, State.underlay]
    · cases within with
      | nil => simp [takeStatement, kind, underlay, Reply.underlay, behind, Tree.children]
      | cons => simp [takeStatement, kind, statementAwaited, Reply.underlay]
  · have started := startOperand_underlay earlier (.statements done :: within) token
    rw [takeStatement_eq other, takeStatement_eq other, statementAwaited_underlay]
    rw [underlay] at started
    rw [started]
    cases startOperand (.statements done :: within) token <;> rfl

theorem endStatement_underlay (done : List Tree) (within : List Frame) (statement : Tree)
    (token : Token) :
    endStatement (behind earlier within done) (underlay earlier within) statement token =
      (endStatement done within statement token).underlay earlier := by
  have further := takeStatement_underlay earlier (done ++ [statement]) within token
  rw [behind_append] at further
  unfold endStatement
  simp only [further]
  split
  · rw [← behind_append]
    rfl
  · split <;> rfl

theorem endExpression_underlay (frames : List Frame) (tree : Tree) (token : Token) :
    endExpression (underlay earlier frames) tree token =
      (endExpression frames tree token).underlay earlier := by
  have ended := fun done within statement =>
    endStatement_underlay earlier done within statement token
  cases frames with
  | nil => rfl
  | cons frame outer =>
    cases frame with
    | statements done => exact ended done outer (.node .expressionStatement [tree])
    | binding name =>
      cases outer with
      | nil => rfl
      | cons frame within =>
        cases frame with
        | statements done => exact ended done within (.node .letStatement [.leaf name, tree])
        | _ => rfl
    | returning =>
      cases outer with
      | nil => rfl
      | cons frame within =>
        cases frame with
        | statements done => exact ended done within (.node .returnStatement [tree])
        | _ => rfl
    | unary | binary | consequence | alternative | body => rfl
    | _ =>
      simp only [underlay, endExpression]
      split <;> rfl

theorem endOperand_underlay (frames : List Frame) (operand : Tree) (token : Token) :
    endOperand (underlay earlier frames) operand token =
      (endOperand frames operand token).underlay earlier := by
  have ended := fun frames tree => endExpression_underlay earlier frames tree token
  unfold endOperand
  simp only [absorb_underlay, ended]
  split
  · rfl
  · rfl
  · split <;> rfl

theorem endBlock_underlay (frames : List Frame) (block : Tree) (token : Token) :
    endBlock (underlay earlier frames) block token =
      (endBlock frames block token).underlay earlier := by
  have ended := fun frames operand =>
    endOperand_underlay earlier frames operand token
  by_cases noElse : token.kind = .elseWord
  · cases frames with
    | nil => simp [endBlock, underlay, noElse, Reply.underlay]
    | cons frame outer => cases frame <;> simp [endBlock, underlay, noElse] <;> rfl
  · cases frames with
    | nil => simp [endBlock, underlay, Reply.underlay]
    | cons frame outer =>
      cases frame with
      | consequence condition =>
        rw [endBlock_consequence noElse]
        exact (endBlock_consequence noElse).trans
          (ended outer (.node .conditional [condition, block]))
      | alternative condition consequence =>
        rw [endBlock_alternative noElse]
        exact (endBlock_alternative noElse).trans
          (ended outer (.node .conditional [condition, consequence, block]))
      | body parameters =>
        rw [endBlock_body noElse]
        exact (endBlock_body noElse).trans
          (ended outer (.node .function [.node .parameters (parameters.map .leaf), block]))
      | _ => simp [endBlock, underlay, Reply.underlay]

end Parts

/-! ### Whole replies -/

/-- **The reader does not look at the statements before.** -/
theorem State.Placed.take_underlay {state : State} (placed : state.Placed) (token : Token) :
    (state.underlay earlier).take token = (state.take token).underlay earlier := by
  obtain ⟨frames, point⟩ := state
  cases point with
  | opened | separated =>
    obtain ⟨done, within, rfl⟩ := Nested.exists_statements placed
    exact takeStatement_underlay earlier done within token
  | operand => exact takeOperand_underlay earlier frames token
  | complete operand => exact endOperand_underlay earlier frames operand token
  | closed block => exact endBlock_underlay earlier frames block token
  | blockAwaited =>
    simp only [State.underlay, State.take]
    split
    · simp [Reply.underlay, State.underlay, Reader.underlay, behind_eq (Nested.closes placed).1]
    · rfl
  | _ =>
    simp only [State.underlay, State.take]
    split <;> rfl

end Scriptlet.Reader
