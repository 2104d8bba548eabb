/-
**Where a program may end.**

* `Reader.Continuing`: the kinds that start an operand and also go on with one: `-`, `(` and `[`.
* `Reader.OpenStatement`: what is open is a statement of the program itself, which its expression
  completes.
* `Reader.State.Holds`: an operand within open constructs is complete.

Main statements: where a program may end, the reader stands between two statements, or it holds
the operand that completes the last one (`State.finished_cases`); and there, a text whose first
token does not go on with an operand is read as it is after a semicolon (`read_of_finished`).
-/
import Scriptlet.Proofs.Reader.Lexemes

namespace Scriptlet.Reader

/-- The kinds that start an operand and also go on with one. -/
def continuing : List Kind :=
  [.minus, .openParen, .openBracket]

/-- What is open is a statement of the program itself, after others, and what it becomes with its
expression. -/
inductive OpenStatement : List Frame → List Tree → (Tree → Tree) → Prop
  | expressing {done : List Tree} :
      OpenStatement [.statements done] done fun tree => .node .expressionStatement [tree]
  | binding {done : List Tree} {name : Token} :
      OpenStatement [.binding name, .statements done] done fun tree =>
        .node .letStatement [.leaf name, tree]
  | returning {done : List Tree} :
      OpenStatement [.returning, .statements done] done fun tree => .node .returnStatement [tree]

/-- An operand within open constructs is complete: it has just been read, or a block that is part of
it has just been closed. -/
inductive State.Holds : State → List Frame → Tree → Prop
  | complete {frames : List Frame} {operand : Tree} :
      Holds ⟨frames, .complete operand⟩ frames operand
  | conditional {outer : List Frame} {condition block : Tree} :
      Holds ⟨.consequence condition :: outer, .closed block⟩ outer
        (.node .conditional [condition, block])
  | choice {outer : List Frame} {condition consequence block : Tree} :
      Holds ⟨.alternative condition consequence :: outer, .closed block⟩ outer
        (.node .conditional [condition, consequence, block])
  | function {outer : List Frame} {parameters : List Token} {block : Tree} :
      Holds ⟨.body parameters :: outer, .closed block⟩ outer
        (.node .function [.node .parameters (parameters.map .leaf), block])

variable {state : State} {frames : List Frame} {operand program : Tree} {token : Token}
  {done : List Tree} {statement : Tree → Tree}

/-- An expression completes the statement. -/
theorem OpenStatement.endExpression_eq (opens : OpenStatement frames done statement) (tree : Tree)
    (token : Token) :
    endExpression frames tree token = endStatement done [] (statement tree) token := by
  cases opens <;> rfl

/-- The next token decides what becomes of the operand. -/
theorem State.Holds.take (holds : state.Holds frames operand) (noElse : token.kind ≠ .elseWord) :
    state.take token = endOperand frames operand token := by
  cases holds with
  | complete => rfl
  | conditional => exact endBlock_consequence noElse
  | choice => exact endBlock_alternative noElse
  | function => exact endBlock_body noElse

/-! ### The end of a program -/

theorem endStatement_finished {within : List Frame} {tree : Tree}
    (finished : endStatement done within tree ending = .finished program) :
    within = [] ∧ program = .node .program (done ++ [tree]) := by
  simp only [endStatement, takeStatement, ending] at finished
  cases within with
  | nil =>
    cases finished
    exact ⟨rfl, rfl⟩
  | cons => cases finished

theorem endExpression_finished {tree : Tree}
    (finished : endExpression frames tree ending = .finished program) :
    ∃ done statement, OpenStatement frames done statement ∧
      program = .node .program (done ++ [statement tree]) := by
  unfold endExpression at finished
  split at finished
  · obtain ⟨rfl, ended⟩ := endStatement_finished finished
    exact ⟨_, _, .expressing, ended⟩
  · obtain ⟨rfl, ended⟩ := endStatement_finished finished
    exact ⟨_, _, .binding, ended⟩
  · obtain ⟨rfl, ended⟩ := endStatement_finished finished
    exact ⟨_, _, .returning, ended⟩
  all_goals cases finished

theorem State.Holds.finished (holds : state.Holds frames operand)
    (finished : state.take ending = .finished program) :
    ∃ done statement, OpenStatement (absorb 0 frames operand).1 done statement ∧
      program = .node .program (done ++ [statement (absorb 0 frames operand).2]) := by
  rw [holds.take (by decide)] at finished
  exact endExpression_finished finished

/-- **Where a program may end**, the reader stands between two statements, or holds the operand that
completes the last statement. -/
theorem State.finished_cases (finished : state.take ending = .finished program) :
    (∃ done point, AwaitsStatement point ∧ state = ⟨[.statements done], point⟩ ∧
      program = .node .program done) ∨ ∃ frames operand, state.Holds frames operand := by
  obtain ⟨frames, point⟩ := state
  cases point with
  | opened | separated =>
    simp only [State.take] at finished
    split at finished
    next done within =>
      simp only [takeStatement, ending] at finished
      cases within with
      | nil =>
        cases finished
        exact Or.inl ⟨done, _, by simp [AwaitsStatement], rfl, rfl⟩
      | cons => cases finished
    · cases finished
  | complete operand => exact Or.inr ⟨_, _, .complete⟩
  | closed block =>
    simp only [State.take] at finished
    unfold endBlock at finished
    split at finished
    next kind => cases kind
    next kind => cases kind
    · exact Or.inr ⟨_, _, .conditional⟩
    · exact Or.inr ⟨_, _, .choice⟩
    · exact Or.inr ⟨_, _, .function⟩
    · cases finished
  | operand =>
    simp only [State.take, takeOperand, startOperand, ending] at finished
    cases finished
  | _ => cases finished

/-! ### A token after the end of a program -/

/-- There, a token that starts a statement and does not go on with an operand is taken as it is
after a semicolon. -/
theorem take_of_finished (finished : state.take ending = .finished program)
    (starts : token.kind ∈ statementStart) (apart : token.kind ∉ continuing) :
    state.take token = (⟨[.statements program.children], .separated⟩ : State).take token := by
  rcases state.finished_cases finished with
    ⟨done, point, awaits, rfl, rfl⟩ | ⟨frames, operand, holds⟩
  · rcases awaits with rfl | rfl <;> rfl
  · obtain ⟨done, statement, opens, rfl⟩ := holds.finished finished
    have known : ∀ kind ∈ statementStart, kind ∉ continuing →
        kind ≠ .elseWord ∧ kind ≠ .semicolon ∧ strength kind = 0 ∧ grip kind ≤ 5 ∧
          kind ∈ afterStatement := by decide
    obtain ⟨noElse, noSemicolon, loose, grips, follows⟩ := known _ starts apart
    rw [holds.take noElse, endOperand_eq grips, if_pos loose, loose, opens.endExpression_eq,
      endStatement, if_neg noSemicolon, if_pos follows]
    rfl

/-- What is awaited where a program may end: what starts one, at least, and of the words of the
language no other one but `else`. -/
theorem awaited_of_finished (finished : state.take ending = .finished program) :
    (∀ kind ∈ State.initial.awaited, kind ∈ state.awaited) ∧
      ∀ word ∈ Kind.words, word ≠ .elseWord →
        state.awaited.contains word = State.initial.awaited.contains word := by
  have among : state.awaited ∈ [State.initial.awaited, afterStatement, afterOperand,
      .elseWord :: afterOperand] := by
    rcases state.finished_cases finished with
      ⟨done, point, awaits, rfl, rfl⟩ | ⟨frames, operand, holds⟩
    · rcases awaits with rfl | rfl
      · exact List.mem_cons_self
      · exact List.mem_cons_of_mem _ List.mem_cons_self
    · cases holds <;> simp [State.awaited]
  have known : ∀ awaited ∈ [State.initial.awaited, afterStatement, afterOperand,
      .elseWord :: afterOperand], (∀ kind ∈ State.initial.awaited, kind ∈ awaited) ∧
        ∀ word ∈ Kind.words, word ≠ .elseWord →
          awaited.contains word = State.initial.awaited.contains word := by decide
  exact known _ among

/-- What is found at the start of a program is found there, but for `else`. -/
theorem scan_of_finished (finished : state.take ending = .finished program) {lexeme : Lexeme}
    {rest : List Char}
    (found : Lexeme.scan State.initial.awaited.contains (lexeme.written ++ rest) = some lexeme)
    (separate : ¬ lexeme.Joinable rest) (noElse : lexeme.written ≠ "else".toList) :
    Lexeme.scan state.awaited.contains (lexeme.written ++ rest) = some lexeme := by
  obtain ⟨wider, words⟩ := awaited_of_finished finished
  refine Lexeme.scan_wider found separate (fun kind looked => ?_) fun word spelled => ?_
  · exact List.contains_iff_mem.mpr (wider kind (List.contains_iff_mem.mp looked))
  · refine words word (List.mem_of_find?_eq_some spelled) ?_
    rintro rfl
    have same := List.find?_some spelled
    have text : some "else" = some (String.ofList lexeme.written) := eq_of_beq same
    exact noElse (by rw [Option.some.inj text, String.toList_ofList])

/-- What a program starts with starts a statement. -/
theorem mem_statementStart {next : State} (taken : State.initial.take token = .next next) :
    token.kind ∈ statementStart := by
  change takeStatement [] [] token = .next next at taken
  simp only [takeStatement] at taken
  split at taken
  next kind => simp [statementStart, kind]
  next kind => simp [statementStart, kind]
  · cases taken
  · cases taken
  · split at taken
    next started => simp [statementStart, startOperand_mem started]
    · cases taken

/-- What is finished is a program. -/
theorem eq_program_of_finished (finished : state.take ending = .finished program) :
    program = .node .program program.children := by
  rcases state.finished_cases finished with ⟨_, _, _, _, rfl⟩ | ⟨_, _, holds⟩
  · rfl
  · obtain ⟨_, _, _, rfl⟩ := holds.finished finished
    rfl

/-- **Where a program may end, another one is read as it is after a semicolon**, if its first token
does not go on with an operand and is not written `else`. -/
theorem read_of_finished {stage : Stage} (finished : stage.state.take ending = .finished program)
    {place : Position} {chars : List Char} {lexemes : List Lexeme} {other : Tree}
    (accepts : Accepts .initial place chars lexemes other)
    (apart : ∀ first ∈ (Lexeme.solid lexemes).head?,
      first.kind ∉ continuing ∧ first.written ≠ "else".toList) :
    stage.read chars =
      ({ stage with state := ⟨[.statements program.children], .separated⟩ } : Stage).read
        chars := by
  have finished' : (⟨[.statements program.children], .separated⟩ : State).take ending =
      .finished program := by
    rw [eq_program_of_finished finished]
    rfl
  generalize start : State.initial = state at accepts
  induction accepts generalizing stage with
  | ending =>
    have ended : stage.state.take ⟨.ending, "", default, 0⟩ = .finished program := finished
    have ended' : (⟨[.statements program.children], .separated⟩ : State).take
        ⟨.ending, "", default, 0⟩ = .finished program := finished'
    simp only [Stage.read, readFrom, takeEnd, ended, ended']
  | @layout _ _ lexeme chars rest _ found layout _ ih =>
    rw [Lexeme.solid_of_layout layout] at apart
    rw [Stage.read_layout (Lexeme.scan_of_layout found layout _) layout,
      Stage.read_layout (Lexeme.scan_of_layout found layout _) layout]
    exact @ih (stage.past lexeme.written) finished apart start
  | @token state next place lexeme chars rest _ found solid _ taken inner _ =>
    subst start
    obtain ⟨apart, noElse⟩ := apart lexeme (by rw [Lexeme.solid_of_token solid]; rfl)
    have separate := inner.not_joinable taken
    have starts : lexeme.kind ∈ statementStart := mem_statementStart taken
    have found' := scan_of_finished finished found separate noElse
    have found'' := scan_of_finished finished' found separate noElse
    have same := @take_of_finished _ _ (lexeme.toToken stage.place) finished starts apart
    rw [Stage.read_token found' solid,
      @Stage.read_token { stage with state := _ } _ _ found'' solid]
    simp only [takeToken, same]
    rfl

end Scriptlet.Reader
