/-
**What a token leads to.**

* `Reader.State.LedBy`: what a state is like just after a token: the point tells of some tokens, and
  some tokens tell the point.

Main statement: a token that is taken leads to such a state (`State.take_ledBy`), with one lemma for
each part of the step.
-/
import Scriptlet.Reader.Step

namespace Scriptlet.Reader

/-- Just after a semicolon at the end of a statement. -/
def State.Separated (state : State) : Prop :=
  ∃ done within, state = ⟨.statements done :: within, .separated⟩

/-- What a state is like just after a token. -/
structure State.LedBy (token : Token) (state : State) : Prop where
  operand : token.kind = .assign ∨ token.kind = .bang → state.point = .operand
  separated : token.kind = .semicolon → state.Separated
  semicolon : state.point = .separated → token.kind = .semicolon
  opened : state.point = .opened → ∃ outer, state.frames = .statements [] :: outer

/-- A reply leads to such a state. -/
def Reply.LedBy (token : Token) : Reply → Prop
  | .next state => state.LedBy token
  | .finished _ | .refused _ => True

variable {frames : List Frame} {token : Token}

/-- Most states say nothing of the token, and most tokens nothing of the state. -/
theorem State.LedBy.of_ne {state : State}
    (other : token.kind ∉ [.assign, .bang, .semicolon])
    (elsewhere : state.point ≠ .separated ∧ state.point ≠ .opened) : state.LedBy token where
  operand joins := absurd (by rcases joins with kind | kind <;> simp [kind]) other
  separated kind := absurd (by simp [kind]) other
  semicolon point := absurd point elsewhere.1
  opened point := absurd point elsewhere.2

/-- Where an operand is awaited, all that is said is that this was no semicolon. -/
theorem State.LedBy.of_operand {state : State} (other : token.kind ≠ .semicolon)
    (awaits : state.point = .operand) : state.LedBy token where
  operand _ := awaits
  separated kind := absurd kind other
  semicolon point := by rw [awaits] at point; cases point
  opened point := by rw [awaits] at point; cases point

theorem startOperand_ledBy {state : State} (started : startOperand frames token = some state) :
    state.LedBy token := by
  unfold startOperand at started
  split at started <;> cases started
  all_goals
    next kind =>
      first
      | exact .of_operand (by simp [kind]) rfl
      | exact .of_ne (by simp [kind]) (by simp)

theorem takeOperand_ledBy : (takeOperand frames token).LedBy token := by
  unfold takeOperand
  split
  next started => exact startOperand_ledBy started
  · split
    next kind _ => exact .of_ne (by simp [kind]) (by simp)
    next kind _ => exact .of_ne (by simp [kind]) (by simp)
    next kind _ => exact .of_ne (by simp [kind]) (by simp)
    · trivial

theorem takeStatement_ledBy (done : List Tree) (within : List Frame) :
    (takeStatement done within token).LedBy token := by
  simp only [takeStatement]
  split
  next kind => exact .of_ne (by simp [kind]) (by simp)
  next kind => exact .of_operand (by simp [kind]) rfl
  next kind =>
    split
    · trivial
    · exact .of_ne (by simp [kind]) (by simp)
  · split <;> trivial
  · split
    next started => exact startOperand_ledBy started
    · trivial

theorem endStatement_ledBy (done : List Tree) (within : List Frame) (statement : Tree) :
    (endStatement done within statement token).LedBy token := by
  simp only [endStatement]
  split
  next kind =>
    exact ⟨fun joins => by simp [kind] at joins, fun _ => ⟨_, _, rfl⟩, fun _ => kind,
      fun point => by cases point⟩
  · split
    · exact takeStatement_ledBy (done ++ [statement]) within
    · trivial

theorem endExpression_ledBy (tree : Tree) : (endExpression frames tree token).LedBy token := by
  unfold endExpression
  split
  · exact endStatement_ledBy _ _ _
  · exact endStatement_ledBy _ _ _
  · exact endStatement_ledBy _ _ _
  all_goals
    try simp only
    try split
    all_goals
      first
      | trivial
      | next kind => exact .of_operand (by simp [kind]) rfl
      | next kind => exact .of_ne (by simp [kind]) (by simp)

theorem endOperand_ledBy (operand : Tree) : (endOperand frames operand token).LedBy token := by
  unfold endOperand
  split
  next kind => exact .of_operand (by simp [kind]) rfl
  next kind => exact .of_operand (by simp [kind]) rfl
  · simp only
    split
    · exact endExpression_ledBy _
    next binds =>
      exact .of_operand (fun kind => binds (by rw [kind]; rfl)) rfl

theorem endBlock_ledBy (block : Tree) : (endBlock frames block token).LedBy token := by
  unfold endBlock
  split
  next kind => exact .of_ne (by simp [kind]) (by simp)
  · trivial
  · exact endOperand_ledBy _
  · exact endOperand_ledBy _
  · exact endOperand_ledBy _
  · trivial

/-- **What a token leads to.** -/
theorem State.take_ledBy (state : State) (token : Token) : (state.take token).LedBy token := by
  obtain ⟨frames, point⟩ := state
  cases point with
  | opened | separated =>
    simp only [State.take]
    split
    · exact takeStatement_ledBy _ _
    · trivial
  | operand => exact takeOperand_ledBy
  | complete operand => exact endOperand_ledBy operand
  | closed block => exact endBlock_ledBy block
  | blockAwaited =>
    simp only [State.take]
    split
    next kind =>
      exact ⟨fun joins => by simp [kind] at joins, fun other => by simp [kind] at other,
        fun point => (by cases point), fun _ => ⟨_, rfl⟩⟩
    · trivial
  | letWord | letName | fnWord | ifWord | parametersOpened | parameter | parameterComma =>
    simp only [State.take]
    split
    all_goals
      first
      | trivial
      | next kind => exact .of_operand (by simp [kind]) rfl
      | next kind => exact .of_ne (by simp [kind]) (by simp)

end Scriptlet.Reader
