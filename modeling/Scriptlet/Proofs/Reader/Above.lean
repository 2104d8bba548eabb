/-
**The reader does not look below an expression** until the expression ends.

An operand is awaited in many constructs: after `=` in a statement, between the arguments of a call,
at the start of a statement. What is read there goes on top of the open constructs.

* `Reader.State.above`: a state on top of other open constructs.
* `Reader.State.Inner`: a state in the midst of an expression, as it is on top of other constructs.
* `Reader.State.Whole`: an expression has been read as far as it may end.
* `Reader.Local`: what becomes of a token on top of whatever other constructs.

Main statement: `State.Inner.take`. In the midst of an expression, a token leads to the same state,
or is refused, on top of whatever other constructs, unless the expression ends before it; with one
lemma for each part of the step.
-/
import Scriptlet.Proofs.Reader.Completion
import Scriptlet.Proofs.Reader.Finished

namespace Scriptlet.Reader

/-- A state on top of other open constructs. -/
def State.above (state : State) (lower : List Frame) : State :=
  ⟨state.frames ++ lower, state.point⟩

/-- Constructs around an expression in which no statement is open but that of the program. -/
def ground : List Frame :=
  [.group, .statements []]

/-- A state in the midst of an expression. -/
def State.Inner (state : State) : Prop :=
  (state.above ground).Placed

/-- An expression has been read as far as it may end: no operator above the other constructs waits
for more. -/
def State.Whole (state : State) (tree : Tree) : Prop :=
  ∃ outer operand, state.Holds outer operand ∧ absorb 0 outer operand = ([], tree)

/-- What becomes of a token on top of whatever constructs that are no operators: it leads to a state
on top of them, or is refused, or a whole expression ends before it. -/
inductive Local (token : Token) (whole : Tree → Prop) (replies : List Frame → Reply) : Prop
  | next (inner : State) :
      (∀ lower, Open 0 lower → replies lower = .next (inner.above lower)) →
      Local token whole replies
  | refused : (∀ lower, Open 0 lower → ∃ expected, replies lower = .refused expected) →
      Local token whole replies
  | ended {tree : Tree} : whole tree →
      (∀ lower, Open 0 lower → replies lower = endExpression lower tree token) →
      Local token whole replies

variable {token : Token} {frames within lower : List Frame}

/-- What is known of the whole expression may be less. -/
theorem Local.mono {whole more : Tree → Prop} {replies : List Frame → Reply}
    (localReply : Local token whole replies) (weaker : ∀ tree, whole tree → more tree) :
    Local token more replies := by
  cases localReply with
  | next inner replied => exact .next inner replied
  | refused replied => exact .refused replied
  | ended known replied => exact .ended (weaker _ known) replied

/-- Only the replies matter. -/
theorem Local.congr {whole : Tree → Prop} {replies replies' : List Frame → Reply}
    (localReply : Local token whole replies)
    (same : ∀ lower, Open 0 lower → replies' lower = replies lower) :
    Local token whole replies' := by
  cases localReply with
  | next inner replied =>
    exact .next inner fun lower open_ => (same lower open_).trans (replied lower open_)
  | refused replied =>
    exact .refused fun lower open_ =>
      (replied lower open_).imp fun _ => (same lower open_).trans
  | ended known replied =>
    exact .ended known fun lower open_ => (same lower open_).trans (replied lower open_)

/-! ### Constructs on top of others -/

/-- Before its first token, a reader is in an expression already. -/
theorem State.Inner.start : (⟨[], .operand⟩ : State).Inner :=
  Nested.group (.statement (.program []))

/-- A block within an expression lies in a construct of the expression. -/
theorem Nested.ne_nil_of_block (nested : Nested .block (frames ++ ground)) : frames ≠ [] := by
  rintro rfl
  cases nested

/-- Statements within an expression are those of a block in it. -/
theorem Nested.exists_block (nested : Nested .statement (frames ++ ground)) :
    ∃ done within, frames = .statements done :: within ∧ within ≠ [] := by
  cases frames with
  | nil => cases nested
  | cons frame within =>
    obtain ⟨done, outer, same⟩ := nested.exists_statements
    obtain ⟨rfl, -⟩ := List.cons.inj same
    have block : Nested .block (within ++ ground) := nested.block_of_within (by simp [ground])
    exact ⟨done, within, rfl, block.ne_nil_of_block⟩

/-- Operators take what they take on top of other constructs, which are left. -/
theorem absorb_above (open_ : Open 0 lower) (least : Nat) (frames : List Frame) (operand : Tree) :
    absorb least (frames ++ lower) operand =
      ((absorb least frames operand).1 ++ lower, (absorb least frames operand).2) := by
  induction frames generalizing operand with
  | nil =>
    cases lower with
    | nil => rfl
    | cons frame others =>
      cases frame with
      | unary => cases open_
      | binary => cases open_
      | _ => rfl
  | cons frame frames ih =>
    cases frame with
    | unary operator => exact ih (.node .unary [.leaf operator, operand])
    | binary left operator =>
      show absorb least (.binary left operator :: (frames ++ lower)) operand = _
      by_cases binds : least ≤ strength operator.kind
      · rw [absorb_of_le binds, absorb_of_le binds]
        exact ih (.node .binary [left, .leaf operator, operand])
      · rw [absorb_of_lt (Nat.lt_of_not_le binds), absorb_of_lt (Nat.lt_of_not_le binds)]
        rfl
    | _ => rfl

/-! ### The parts of a reply -/

theorem startOperand_above (frames lower : List Frame) (token : Token) :
    startOperand (frames ++ lower) token =
      (startOperand frames token).map fun state => state.above lower := by
  unfold startOperand
  split <;> rfl

theorem takeOperand_local (some_ : frames ≠ []) :
    Local token (fun _ => False) fun lower => takeOperand (frames ++ lower) token := by
  unfold takeOperand
  simp only [startOperand_above]
  cases startOperand frames token with
  | some state => exact .next state fun _ _ => rfl
  | none =>
    obtain ⟨kind, text, place, stop⟩ := token
    obtain ⟨frame, outer, rfl⟩ := List.exists_cons_of_ne_nil some_
    cases frame with
    | arguments callee done =>
      cases done with
      | cons => exact .refused fun _ _ => ⟨_, rfl⟩
      | nil =>
        cases kind with
        | closeParen =>
          exact .next ⟨outer, .complete (.node .call [callee, .node .arguments []])⟩ fun _ _ => rfl
        | _ => exact .refused fun _ _ => ⟨_, rfl⟩
    | array done =>
      cases done with
      | cons => exact .refused fun _ _ => ⟨_, rfl⟩
      | nil =>
        cases kind with
        | closeBracket => exact .next ⟨outer, .complete (.node .array [])⟩ fun _ _ => rfl
        | _ => exact .refused fun _ _ => ⟨_, rfl⟩
    | key done =>
      cases done with
      | cons => exact .refused fun _ _ => ⟨_, rfl⟩
      | nil =>
        cases kind with
        | closeBrace => exact .next ⟨outer, .complete (.node .hash [])⟩ fun _ _ => rfl
        | _ => exact .refused fun _ _ => ⟨_, rfl⟩
    | _ => exact .refused fun _ _ => ⟨_, rfl⟩

theorem takeStatement_local (some_ : within ≠ []) (done : List Tree) :
    Local token (fun _ => False) fun lower => takeStatement done (within ++ lower) token := by
  by_cases other : token.kind ∈ [.letWord, .returnWord, .closeBrace, .ending]
  · simp only [List.mem_cons, List.not_mem_nil, or_false] at other
    rcases other with kind | kind | kind | kind
    · exact .next ⟨.statements done :: within, .letWord⟩ fun _ _ => by
        simp only [takeStatement, kind]
        rfl
    · exact .next ⟨.returning :: .statements done :: within, .operand⟩ fun _ _ => by
        simp only [takeStatement, kind]
        rfl
    · exact .next ⟨within, .closed (.node .block done)⟩ fun _ _ => by
        simp [takeStatement, kind, some_, State.above]
    · exact .refused fun lower _ => ⟨statementAwaited (within ++ lower), by
        simp [takeStatement, kind, some_]⟩
  · have started := fun lower => startOperand_above (.statements done :: within) lower token
    simp only [takeStatement_eq other]
    simp only [List.cons_append] at started
    simp only [started]
    cases startOperand (.statements done :: within) token with
    | some state => exact .next state fun _ _ => rfl
    | none => exact .refused fun _ _ => ⟨_, rfl⟩

theorem endStatement_local (some_ : within ≠ []) (done : List Tree) (statement : Tree) :
    Local token (fun _ => False) fun lower =>
      endStatement done (within ++ lower) statement token := by
  unfold endStatement
  split
  · exact .next ⟨.statements (done ++ [statement]) :: within, .separated⟩ fun _ _ => rfl
  · split
    · exact takeStatement_local some_ _
    · exact .refused fun _ _ => ⟨_, rfl⟩

theorem endExpression_local (some_ : frames ≠ []) (nested : Nested .expression (frames ++ ground))
    (tree : Tree) :
    Local token (fun _ => False) fun lower => endExpression (frames ++ lower) tree token := by
  obtain ⟨frame, outer, rfl⟩ := List.exists_cons_of_ne_nil some_
  cases frame with
  | statements done =>
    cases nested with
    | statement inner =>
      have block : Nested .block (outer ++ ground) := inner.block_of_within (by simp [ground])
      exact endStatement_local block.ne_nil_of_block done _
  | binding name =>
    cases nested with
    | statement inner => cases inner
    | binding _ inner =>
      obtain ⟨done, within, rfl, inside⟩ := Nested.exists_block inner
      exact endStatement_local inside done _
  | returning =>
    cases nested with
    | statement inner => cases inner
    | returning inner =>
      obtain ⟨done, within, rfl, inside⟩ := Nested.exists_block inner
      exact endStatement_local inside done _
  | unary | binary | consequence | alternative | body => exact .refused fun _ _ => ⟨_, rfl⟩
  | group =>
    simp only [List.cons_append, endExpression]
    split
    · exact .next ⟨outer, .complete tree⟩ fun _ _ => rfl
    · exact .refused fun _ _ => ⟨_, rfl⟩
  | arguments callee done =>
    simp only [List.cons_append, endExpression]
    split
    · exact .next ⟨.arguments callee (done ++ [tree]) :: outer, .operand⟩ fun _ _ => rfl
    · exact .next ⟨outer, .complete (.node .call [callee, .node .arguments (done ++ [tree])])⟩
        fun _ _ => rfl
    · exact .refused fun _ _ => ⟨_, rfl⟩
    · exact .refused fun _ _ => ⟨_, rfl⟩
  | index container =>
    simp only [List.cons_append, endExpression]
    split
    · exact .next ⟨outer, .complete (.node .index [container, tree])⟩ fun _ _ => rfl
    · exact .refused fun _ _ => ⟨_, rfl⟩
  | array done =>
    simp only [List.cons_append, endExpression]
    split
    · exact .next ⟨.array (done ++ [tree]) :: outer, .operand⟩ fun _ _ => rfl
    · exact .next ⟨outer, .complete (.node .array (done ++ [tree]))⟩ fun _ _ => rfl
    · exact .refused fun _ _ => ⟨_, rfl⟩
    · exact .refused fun _ _ => ⟨_, rfl⟩
  | key done =>
    simp only [List.cons_append, endExpression]
    split
    · exact .next ⟨.value done tree :: outer, .operand⟩ fun _ _ => rfl
    · exact .refused fun _ _ => ⟨_, rfl⟩
  | value done key =>
    simp only [List.cons_append, endExpression]
    split
    · exact .next ⟨.key (done ++ [.node .pair [key, tree]]) :: outer, .operand⟩ fun _ _ => rfl
    · exact .next ⟨outer, .complete (.node .hash (done ++ [.node .pair [key, tree]]))⟩
        fun _ _ => rfl
    · exact .refused fun _ _ => ⟨_, rfl⟩
  | condition =>
    simp only [List.cons_append, endExpression]
    split
    · exact .next ⟨.consequence tree :: outer, .blockAwaited⟩ fun _ _ => rfl
    · exact .refused fun _ _ => ⟨_, rfl⟩

theorem endOperand_local (nested : Nested .expression (frames ++ ground)) (operand : Tree) :
    Local token (fun tree => strength token.kind = 0 ∧ absorb 0 frames operand = ([], tree))
      fun lower => endOperand (frames ++ lower) operand token := by
  obtain ⟨⟨outer, tree⟩, absorbed⟩ :
      ∃ rest, absorb (strength token.kind) frames operand = rest := ⟨_, rfl⟩
  have onTop : ∀ lower, Open 0 lower → absorb (strength token.kind) (frames ++ lower) operand =
      (outer ++ lower, tree) := by
    intro lower open_
    rw [absorb_above open_, absorbed]
  have nestedOuter := absorb_nested (strength token.kind) operand nested
  rw [onTop ground trivial] at nestedOuter
  -- beside brackets, which always go on with the operand, operators take what they bind
  have further : Local token
      (fun tree => strength token.kind = 0 ∧ absorb 0 frames operand = ([], tree)) fun lower =>
        if strength token.kind = 0 then endExpression (outer ++ lower) tree token
        else .next ⟨.binary tree token :: (outer ++ lower), .operand⟩ := by
    split
    next loose =>
      by_cases whole : outer = []
      · subst whole
        exact .ended ⟨loose, by rw [← loose, absorbed]⟩ fun _ _ => rfl
      · exact (endExpression_local whole nestedOuter tree).mono fun _ never => never.elim
    · exact .next ⟨.binary tree token :: outer, .operand⟩ fun _ _ => rfl
  unfold endOperand
  split
  · exact .next ⟨.arguments operand [] :: frames, .operand⟩ fun _ _ => rfl
  · exact .next ⟨.index operand :: frames, .operand⟩ fun _ _ => rfl
  · exact further.congr fun lower open_ => by simp only [onTop lower open_]

theorem endBlock_local (nested : Nested .block (frames ++ ground)) (block : Tree) :
    Local token (fun tree => token.kind ≠ .elseWord ∧ strength token.kind = 0 ∧
        (⟨frames, .closed block⟩ : State).Whole tree) fun lower =>
      endBlock (frames ++ lower) block token := by
  obtain ⟨frame, outer, rfl⟩ := List.exists_cons_of_ne_nil nested.ne_nil_of_block
  by_cases noElse : token.kind = .elseWord
  · cases frame with
    | consequence condition =>
      exact .next ⟨.alternative condition block :: outer, .blockAwaited⟩ fun _ _ => by
        simp only [List.cons_append, endBlock, noElse]
        rfl
    | _ =>
      exact .refused fun _ _ => ⟨afterOperand, by simp [endBlock, noElse]⟩
  · cases nested with
    | consequence condition inner =>
      simp only [List.cons_append, endBlock_consequence noElse]
      exact (endOperand_local inner _).mono fun tree ended =>
        ⟨noElse, ended.1, outer, _, .conditional, ended.2⟩
    | alternative condition consequence inner =>
      simp only [List.cons_append, endBlock_alternative noElse]
      exact (endOperand_local inner _).mono fun tree ended =>
        ⟨noElse, ended.1, outer, _, .choice, ended.2⟩
    | body parameters inner =>
      simp only [List.cons_append, endBlock_body noElse]
      exact (endOperand_local inner _).mono fun tree ended =>
        ⟨noElse, ended.1, outer, _, .function, ended.2⟩

/-! ### Whole replies -/

/-- **In the midst of an expression, a token leads to the same state on top of whatever
constructs**, or it is refused, or the expression ends before it. -/
theorem State.Inner.take {state : State} (inner : state.Inner)
    (begun : state.point = .operand → state.frames ≠ []) (token : Token) :
    Local token (fun tree => strength token.kind = 0 ∧ state.Whole tree) fun lower =>
      (state.above lower).take token := by
  obtain ⟨frames, point⟩ := state
  cases point with
  | opened | separated =>
    obtain ⟨done, within, rfl, some_⟩ := Nested.exists_block inner
    exact (takeStatement_local some_ done).mono fun _ never => never.elim
  | operand => exact (takeOperand_local (begun rfl)).mono fun _ never => never.elim
  | complete operand =>
    exact (endOperand_local inner operand).mono fun tree ⟨loose, absorbed⟩ =>
      ⟨loose, frames, operand, .complete, absorbed⟩
  | closed block =>
    exact (endBlock_local inner block).mono fun tree ⟨_, loose, whole⟩ => ⟨loose, whole⟩
  | letWord =>
    simp only [State.above, State.take]
    split
    · exact .next ⟨frames, .letName token⟩ fun _ _ => rfl
    · exact .refused fun _ _ => ⟨_, rfl⟩
  | letName name =>
    simp only [State.above, State.take]
    split
    · exact .next ⟨.binding name :: frames, .operand⟩ fun _ _ => rfl
    · exact .refused fun _ _ => ⟨_, rfl⟩
  | fnWord =>
    simp only [State.above, State.take]
    split
    · exact .next ⟨frames, .parametersOpened⟩ fun _ _ => rfl
    · exact .refused fun _ _ => ⟨_, rfl⟩
  | ifWord =>
    simp only [State.above, State.take]
    split
    · exact .next ⟨.condition :: frames, .operand⟩ fun _ _ => rfl
    · exact .refused fun _ _ => ⟨_, rfl⟩
  | parametersOpened =>
    simp only [State.above, State.take]
    split
    · exact .next ⟨frames, .parameter [token]⟩ fun _ _ => rfl
    · exact .next ⟨.body [] :: frames, .blockAwaited⟩ fun _ _ => rfl
    · exact .refused fun _ _ => ⟨_, rfl⟩
  | parameter done =>
    simp only [State.above, State.take]
    split
    · exact .next ⟨frames, .parameterComma done⟩ fun _ _ => rfl
    · exact .next ⟨.body done :: frames, .blockAwaited⟩ fun _ _ => rfl
    · exact .refused fun _ _ => ⟨_, rfl⟩
  | parameterComma done =>
    simp only [State.above, State.take]
    split
    · exact .next ⟨frames, .parameter (done ++ [token])⟩ fun _ _ => rfl
    · exact .refused fun _ _ => ⟨_, rfl⟩
  | blockAwaited =>
    simp only [State.above, State.take]
    split
    · exact .next ⟨.statements [] :: frames, .opened⟩ fun _ _ => rfl
    · exact .refused fun _ _ => ⟨_, rfl⟩

/-! ### On top of a statement and on top of other constructs -/

/-- An expression that has been read as far as it may end does end before whatever does not go on
with an operand. -/
theorem State.Whole.take {state : State} {tree : Tree} (whole : state.Whole tree)
    (open_ : Open 0 lower) (noElse : token.kind ≠ .elseWord) (loose : grip token.kind = 0) :
    (state.above lower).take token = endExpression lower tree token := by
  obtain ⟨outer, operand, holds, absorbed⟩ := whole
  have onTop : (state.above lower).Holds (outer ++ lower) operand := by
    cases holds with
    | complete => exact .complete
    | conditional => exact .conditional
    | choice => exact .choice
    | function => exact .function
  have weak : strength token.kind = 0 := Nat.le_zero.mp (loose ▸ strength_le_grip token.kind)
  rw [onTop.take noElse, endOperand_eq (by omega), if_pos weak, weak, absorb_above open_, absorbed]
  rfl

/-- After a whole expression, whatever may follow an operand is awaited. -/
theorem State.Whole.awaited {state : State} {tree : Tree} (whole : state.Whole tree)
    (lower : List Frame) {kind : Kind} (follows : kind ∈ afterOperand) :
    kind ∈ (state.above lower).awaited := by
  obtain ⟨outer, operand, holds, -⟩ := whole
  cases holds with
  | complete => exact follows
  | _ => exact List.mem_cons_of_mem _ follows

/-- The statement of a program is no operator. -/
theorem OpenStatement.open_zero {done : List Tree} {statement : Tree → Tree}
    (opens : OpenStatement lower done statement) : Open 0 lower := by
  cases opens <;> trivial

/-- What starts an operand leads into an expression, on top of whatever constructs. -/
theorem startOperand_onTop {state : State} (started : startOperand [] token = some state) :
    state.Inner ∧ ∀ lower, startOperand lower token = some (state.above lower) := by
  have onTop : ∀ lower, startOperand lower token = some (state.above lower) := by
    intro lower
    have found := startOperand_above [] lower token
    rwa [started] at found
  exact ⟨startOperand_placed State.Inner.start (onTop ground), onTop⟩

/-- Something has been read of an expression, or nothing yet. -/
theorem State.begun_or_start (state : State) :
    (state.point = .operand → state.frames ≠ []) ∨ state = ⟨[], .operand⟩ := by
  obtain ⟨frames, point⟩ := state
  by_cases none : point = .operand ∧ frames = []
  · obtain ⟨rfl, rfl⟩ := none
    exact Or.inr rfl
  · exact Or.inl fun awaits some_ => none ⟨awaits, some_⟩

section Statement

variable {done : List Tree} {statement : Tree → Tree} {state next : State}

/-- **A token that is taken in the midst of the expression of a statement** leads to the same state
on top of whatever constructs, or it ends the expression. -/
theorem State.Inner.of_next (inner : state.Inner) (opens : OpenStatement lower done statement)
    (taken : (state.above lower).take token = .next next) :
    (∃ after : State, after.Inner ∧ next = after.above lower ∧ ∀ other, Open 0 other →
        (state.above other).take token = .next (after.above other)) ∨
      ∃ tree, endExpression lower tree token = .next next := by
  rcases state.begun_or_start with begun | rfl
  · cases inner.take begun token with
    | next after replied =>
      refine Or.inl ⟨after, ?_, ?_, replied⟩
      · have placed := State.Placed.take inner token
        rw [replied ground trivial] at placed
        exact placed
      · exact (Reply.next.inj ((replied lower opens.open_zero).symm.trans taken)).symm
    | refused replied =>
      obtain ⟨expected, refused⟩ := replied lower opens.open_zero
      cases refused.symm.trans taken
    | ended _ replied => exact Or.inr ⟨_, (replied lower opens.open_zero).symm.trans taken⟩
  · have replied : takeOperand lower token = .next next := taken
    cases started : startOperand [] token with
    | none =>
      have missed := startOperand_above [] lower token
      rw [started, List.nil_append] at missed
      cases opens <;> simp [takeOperand, missed] at replied
    | some after =>
      obtain ⟨innerAfter, onTop⟩ := startOperand_onTop started
      have begins : ∀ lower, takeOperand lower token = .next (after.above lower) := by
        intro lower
        unfold takeOperand
        rw [onTop lower]
      refine Or.inl ⟨after, innerAfter, ?_, fun other _ => begins other⟩
      exact (Reply.next.inj ((begins lower).symm.trans replied)).symm

/-- A program ends only after a whole expression, which completes the last statement. -/
theorem State.Inner.of_finished {program : Tree} (inner : state.Inner)
    (opens : OpenStatement lower done statement)
    (finished : (state.above lower).take ending = .finished program) :
    ∃ tree, state.Whole tree ∧ program = .node .program (done ++ [statement tree]) := by
  rcases state.begun_or_start with begun | rfl
  · cases inner.take begun ending with
    | next _ replied => cases (replied lower opens.open_zero).symm.trans finished
    | refused replied =>
      obtain ⟨expected, refused⟩ := replied lower opens.open_zero
      cases refused.symm.trans finished
    | @ended tree known replied =>
      have ended := (replied lower opens.open_zero).symm.trans finished
      rw [opens.endExpression_eq] at ended
      exact ⟨tree, known.2, (endStatement_finished ended).2⟩
  · have replied : takeOperand lower ending = .finished program := finished
    cases opens <;> cases replied

/-- **What is found in the midst of the expression of a statement** is found on top of whatever
constructs. -/
theorem State.Inner.scan (inner : state.Inner) (opens : OpenStatement lower done statement)
    (other : List Frame) {chars : List Char} {lexeme : Lexeme}
    (found : Lexeme.scan (state.above lower).awaited.contains chars = some lexeme) :
    Lexeme.scan (state.above other).awaited.contains chars = some lexeme := by
  rcases state.begun_or_start with begun | rfl
  · have same : (state.above other).awaited = (state.above lower).awaited := by
      obtain ⟨frames, point⟩ := state
      cases point with
      | opened =>
        obtain ⟨done, within, rfl, some_⟩ := Nested.exists_block inner
        simp [State.awaited, State.above, statementAwaited, some_]
      | operand =>
        obtain ⟨frame, outer, rfl⟩ := List.exists_cons_of_ne_nil (begun rfl)
        cases frame with
        | arguments _ done | array done | key done => cases done <;> rfl
        | _ => rfl
      | _ => rfl
    rwa [same]
  · have plain : operandAwaited lower = operandStart := by cases opens <;> rfl
    have among : operandAwaited other = operandStart ∨
        ∃ closer ∈ Kind.closers, operandAwaited other = closer :: operandStart := by
      unfold operandAwaited
      split
      · exact Or.inr ⟨_, by decide, rfl⟩
      · exact Or.inr ⟨_, by decide, rfl⟩
      · exact Or.inr ⟨_, by decide, rfl⟩
      · exact Or.inl rfl
    change Lexeme.scan (operandAwaited lower).contains chars = some lexeme at found
    show Lexeme.scan (operandAwaited other).contains chars = some lexeme
    rw [plain] at found
    rcases among with same | ⟨closer, closes, same⟩
    · rwa [same]
    · rw [same]
      have unsought : ∀ closer ∈ Kind.closers, operandStart.contains closer = false := by decide
      refine Lexeme.scan_closer closes (unsought closer closes) (fun kind distinct => ?_) found
      rw [List.contains_cons, beq_false_of_ne distinct, Bool.false_or]

end Statement

end Scriptlet.Reader
