/-
**Two readings of the same tokens, abreast.**

After an operand, `-`, `(` and `[` go on with it; at the start of a program they start an operand.
From then on the first reader is in a program of its own, and the second one in the statement that
it has not ended. They take the same tokens in the same way, but for operators, which may stand on
either side, until both statements end together.

* `Reader.Frame.Alike`: two constructs wait for the same; one that has been opened after an
  operand waits for no more than the one at the start.
* `Reader.Abreast`: open constructs of the two readers, the outermost of which are a program and a
  statement in another one.
* `Reader.State.Abreast`, `Reader.Reply.Abreast`: the same of states, and of the replies to a
  token, where one of them may refuse it, or both statements end.

Main statement: `State.Abreast.take`, the replies to a token of readers that stand abreast, with
one lemma for each part of the step.
-/
import Scriptlet.Proofs.Reader.Finished
import Scriptlet.Proofs.Reader.Order

namespace Scriptlet.Reader

/-- An operator that waits for its operand. -/
def Frame.isOperator : Frame → Bool
  | .unary _ | .binary _ _ => true
  | _ => false

/-- Two constructs in which something of the one role is read are part of something of the other
role, and wait for the same. The second one may go on with an operand where the first starts one. -/
inductive Frame.Alike : (inner outer : Role) → Frame → Frame → Prop
  | statements {done done' : List Tree} :
      Alike .statement .block (.statements done) (.statements done')
  | consequence {condition condition' : Tree} :
      Alike .block .expression (.consequence condition) (.consequence condition')
  | alternative {condition condition' consequence consequence' : Tree} :
      Alike .block .expression (.alternative condition consequence)
        (.alternative condition' consequence')
  | body {parameters parameters' : List Token} :
      Alike .block .expression (.body parameters) (.body parameters')
  | binding {name name' : Token} : Alike .expression .statement (.binding name) (.binding name')
  | returning : Alike .expression .statement .returning .returning
  | group : Alike .expression .expression .group .group
  | condition : Alike .expression .expression .condition .condition
  | arguments {callee callee' : Tree} {done done' : List Tree} : (done = [] ↔ done' = []) →
      Alike .expression .expression (.arguments callee done) (.arguments callee' done')
  | index {container container' : Tree} :
      Alike .expression .expression (.index container) (.index container')
  | array {done done' : List Tree} : (done = [] ↔ done' = []) →
      Alike .expression .expression (.array done) (.array done')
  | key {done done' : List Tree} : (done = [] ↔ done' = []) →
      Alike .expression .expression (.key done) (.key done')
  | value {done done' : List Tree} {key key' : Tree} :
      Alike .expression .expression (.value done key) (.value done' key')
  | called {callee : Tree} : Alike .expression .expression .group (.arguments callee [])
  | indexed {container : Tree} : Alike .expression .expression (.array []) (.index container)

/-- Open constructs of two readers, innermost first, in which something of the given role is read:
at the bottom are a program without statements and the base, and operators may stand on either
side. -/
inductive Abreast (base : List Frame) : Role → List Frame → List Frame → Prop
  | base : Abreast base .expression [.statements []] base
  | first {operator : Frame} {outer outer' : List Frame} : operator.isOperator = true →
      Abreast base .expression outer outer' → Abreast base .expression (operator :: outer) outer'
  | second {operator : Frame} {outer outer' : List Frame} : operator.isOperator = true →
      Abreast base .expression outer outer' → Abreast base .expression outer (operator :: outer')
  | within {inner role : Role} {frame frame' : Frame} {outer outer' : List Frame} :
      frame.Alike inner role frame' → Abreast base role outer outer' →
      Abreast base inner (frame :: outer) (frame' :: outer')
  | statement {outer outer' : List Frame} : Abreast base .statement outer outer' →
      Abreast base .expression outer outer'

/-- The same has just been read, and something of the role goes on. -/
inductive Point.Alike : Role → Point → Point → Prop
  | opened : Alike .statement .opened .opened
  | separated : Alike .statement .separated .separated
  | letWord : Alike .statement .letWord .letWord
  | letName {name name' : Token} : Alike .statement (.letName name) (.letName name')
  | closed {block block' : Tree} : Alike .block (.closed block) (.closed block')
  | blockAwaited : Alike .block .blockAwaited .blockAwaited
  | operand : Alike .expression .operand .operand
  | complete {tree tree' : Tree} : Alike .expression (.complete tree) (.complete tree')
  | fnWord : Alike .expression .fnWord .fnWord
  | ifWord : Alike .expression .ifWord .ifWord
  | parametersOpened : Alike .expression .parametersOpened .parametersOpened
  | parameter {done done' : List Token} : Alike .expression (.parameter done) (.parameter done')
  | parameterComma {done done' : List Token} :
      Alike .expression (.parameterComma done) (.parameterComma done')

/-- Two readers stand abreast. -/
inductive State.Abreast (base : List Frame) : State → State → Prop
  | intro {role : Role} {frames frames' : List Frame} {point point' : Point} :
      point.Alike role point' → Reader.Abreast base role frames frames' →
      Abreast base ⟨frames, point⟩ ⟨frames', point'⟩

/-- The replies to a token lead on abreast, or one of them refuses it, or both statements end, which
have all the tokens so far. -/
inductive Reply.Abreast (base : List Frame) (token token' : Token) (tokens tokens' : List Token) :
    Reply → Reply → Prop
  | next {state state' : State} : state.Abreast base state' →
      Abreast base token token' tokens tokens' (.next state) (.next state')
  | refused {expected : List Kind} {reply : Reply} :
      Abreast base token token' tokens tokens' (.refused expected) reply
  | refusedSecond {expected : List Kind} {reply : Reply} :
      Abreast base token token' tokens tokens' reply (.refused expected)
  | ended {tree tree' : Tree} {reply reply' : Reply} : tree.tokens = tokens →
      tokensWithin base ++ tree'.tokens = tokens' →
      endStatement [] [] (.node .expressionStatement [tree]) token = reply →
      endExpression base tree' token' = reply' →
      Abreast base token token' tokens tokens' reply reply'

/-! ### Operators -/

namespace Abreast

variable {base frames frames' outer outer' : List Frame} {operator : Frame} {role : Role}

/-- No other construct is like an operator. -/
theorem not_alike (isOperator : operator.isOperator = true) {inner : Role} {frame : Frame} :
    ¬ operator.Alike inner role frame ∧ ¬ frame.Alike inner role operator := by
  constructor <;>
    · rintro alike
      cases alike <;> cases isOperator

theorem of_first (isOperator : operator.isOperator = true)
    (abreast : Abreast base role (operator :: outer) frames') :
    Abreast base role outer frames' := by
  generalize whole : operator :: outer = frames at abreast
  induction abreast with
  | base =>
    cases whole
    cases isOperator
  | first _ inner =>
    cases whole
    exact inner
  | second other _ ih => exact .second other (ih whole)
  | within alike =>
    cases whole
    exact absurd alike (not_alike isOperator).1
  | statement _ ih => exact .statement (ih whole)

/-- What the operators on the first side absorb leaves the second side as it is. -/
theorem absorb_first (least : Nat) (operand : Tree)
    (abreast : Abreast base .expression frames frames') :
    Abreast base .expression (absorb least frames operand).1 frames' := by
  fun_induction absorb least frames operand with
  | case1 operand frames operator ih => exact ih (abreast.of_first rfl)
  | case2 operand left operator frames _ ih => exact ih (abreast.of_first rfl)
  | case3 => exact abreast
  | case4 => exact abreast

/-- The base is a statement, which is no operator. -/
theorem of_second {done : List Tree} {statement : Tree → Tree}
    (opens : OpenStatement base done statement) (isOperator : operator.isOperator = true)
    (abreast : Abreast base role frames (operator :: outer)) : Abreast base role frames outer := by
  generalize whole : operator :: outer = frames' at abreast
  induction abreast with
  | base => cases opens <;> cases whole <;> cases isOperator
  | first other _ ih => exact .first other (ih whole)
  | second _ inner =>
    cases whole
    exact inner
  | within alike =>
    cases whole
    exact absurd alike (not_alike isOperator).2
  | statement _ ih => exact .statement (ih whole)

theorem absorb_second {done : List Tree} {statement : Tree → Tree}
    (opens : OpenStatement base done statement) (least : Nat) (operand : Tree)
    (abreast : Abreast base .expression frames frames') :
    Abreast base .expression frames (absorb least frames' operand).1 := by
  fun_induction absorb least frames' operand with
  | case1 operand frames operator ih => exact ih (abreast.of_second opens rfl)
  | case2 operand left operator frames _ ih => exact ih (abreast.of_second opens rfl)
  | case3 => exact abreast
  | case4 => exact abreast

/-- What the operators have not absorbed yet may stand on the second side. -/
theorem of_absorb_second (least : Nat) (operand : Tree)
    (abreast : Abreast base .expression frames (absorb least frames' operand).1) :
    Abreast base .expression frames frames' := by
  fun_induction absorb least frames' operand with
  | case1 operand frames operator ih => exact .second rfl (ih abreast)
  | case2 operand left operator frames _ ih => exact .second rfl (ih abreast)
  | case3 => exact abreast
  | case4 => exact abreast

/-- A construct that is neither an operator nor made of statements stands beside an operator, or
beside one like it. -/
theorem exists_alike {frame : Frame} (noOperator : frame.isOperator = false)
    (noStatements : ∀ done, frame ≠ .statements done)
    (abreast : Abreast base .expression (frame :: outer) frames') :
    ∃ frame' outer', frames' = frame' :: outer' ∧ (frame'.isOperator = true ∨
      ∃ role, frame.Alike .expression role frame' ∧ Abreast base role outer outer') := by
  cases abreast with
  | base => exact absurd rfl (noStatements [])
  | first isOperator => cases noOperator.symm.trans isOperator
  | second isOperator => exact ⟨_, _, rfl, Or.inl isOperator⟩
  | within alike inner => exact ⟨_, _, rfl, Or.inr ⟨_, alike, inner⟩⟩
  | statement inner =>
    cases inner with
    | within alike =>
      cases alike
      exact absurd rfl (noStatements _)

/-- Within a block there is always a construct around it. -/
theorem ne_nil (abreast : Abreast base .block frames frames') : frames ≠ [] ∧ frames' ≠ [] := by
  cases abreast with
  | within => simp

end Abreast

/-! ### What is awaited -/

/-- Where an operand is awaited, nothing else is but closing marks. -/
theorem contains_operandAwaited (frames : List Frame) {kind : Kind} (opens : kind ∉ Kind.closers) :
    (operandAwaited frames).contains kind = operandStart.contains kind := by
  have other : ∀ closer ∈ Kind.closers, (kind == closer) = false := fun closer closes =>
    beq_false_of_ne fun same => opens (same ▸ closes)
  unfold operandAwaited
  split
  · rw [List.contains_cons, other _ (by decide), Bool.false_or]
  · rw [List.contains_cons, other _ (by decide), Bool.false_or]
  · rw [List.contains_cons, other _ (by decide), Bool.false_or]
  · rfl

/-- Readers that stand abreast await the same but for closing marks. -/
theorem State.Abreast.awaited {base : List Frame} {state state' : State}
    (abreast : state.Abreast base state') {kind : Kind} (opens : kind ∉ Kind.closers) :
    state'.awaited.contains kind = state.awaited.contains kind := by
  obtain ⟨point, frames⟩ := abreast
  cases point with
  | operand => exact (contains_operandAwaited _ opens).trans (contains_operandAwaited _ opens).symm
  | opened =>
    cases frames with
    | within alike inner =>
      cases alike with
      | statements =>
        obtain ⟨some_, some_'⟩ := inner.ne_nil
        simp [State.awaited, statementAwaited, some_, some_']
  | _ => rfl

/-! ### The parts of a reply -/

section Replies

variable {base frames frames' within within' : List Frame} {token token' : Token}
  {tokens tokens' : List Token}

theorem startOperand_abreast (abreast : Abreast base .expression frames frames')
    (same : token'.kind = token.kind) :
    (∃ state state', startOperand frames token = some state ∧
        startOperand frames' token' = some state' ∧ state.Abreast base state') ∨
      startOperand frames token = none ∧ startOperand frames' token' = none := by
  unfold startOperand
  rw [same]
  split
  case h_13 => exact Or.inr ⟨rfl, rfl⟩
  all_goals refine Or.inl ⟨_, _, rfl, rfl, ?_⟩
  · exact .intro .complete abreast
  · exact .intro .complete abreast
  · exact .intro .complete abreast
  · exact .intro .complete abreast
  · exact .intro .complete abreast
  · exact .intro .operand (.within .group abreast)
  · exact .intro .operand (.within (.array Iff.rfl) abreast)
  · exact .intro .operand (.within (.key Iff.rfl) abreast)
  · exact .intro .fnWord abreast
  · exact .intro .ifWord abreast
  · exact .intro .operand (.first rfl (.second rfl abreast))
  · exact .intro .operand (.first rfl (.second rfl abreast))

/-- Beside an operator, which waits for its operand, nothing is closed. So what closes a construct
that is no operator matters only beside one like it. -/
theorem takeOperand_of_alike {frame : Frame} {outer : List Frame} {reply : Reply}
    (abreast : Abreast base .expression (frame :: outer) frames')
    (noOperator : frame.isOperator = false) (noStatements : ∀ done, frame ≠ .statements done)
    (noStart : startOperand frames' token' = none)
    (beside : ∀ frame' outer' role, startOperand (frame' :: outer') token' = none →
      frame.Alike .expression role frame' → Abreast base role outer outer' →
      reply.Abreast base token token' tokens tokens' (takeOperand (frame' :: outer') token')) :
    reply.Abreast base token token' tokens tokens' (takeOperand frames' token') := by
  obtain ⟨frame', outer', rfl, isOperator | ⟨role, alike, inner⟩⟩ :=
    abreast.exists_alike noOperator noStatements
  · unfold takeOperand
    rw [noStart]
    cases frame' <;> first | exact .refusedSecond | cases isOperator
  · exact beside _ _ role noStart alike inner

/-- Whatever starts an operand, or closes what is empty, does so on both sides, or is refused. -/
theorem takeOperand_abreast (abreast : Abreast base .expression frames frames')
    (same : token'.kind = token.kind) :
    (takeOperand frames token).Abreast base token token' tokens tokens'
      (takeOperand frames' token') := by
  rcases startOperand_abreast abreast same with
    ⟨state, state', start, start', led⟩ | ⟨noStart, noStart'⟩
  · unfold takeOperand
    rw [start, start']
    exact .next led
  -- the second reply stays as it is until the construct on its side is known
  generalize reply' : takeOperand frames' token' = other
  unfold takeOperand
  rw [noStart]
  simp only
  subst other
  split
  next kind =>
    refine takeOperand_of_alike abreast rfl (by simp) noStart' fun _ _ _ noStart' alike inner => ?_
    cases alike with
    | arguments empty =>
      obtain rfl := empty.mp rfl
      simp only [takeOperand, noStart', same, kind]
      exact .next (.intro .complete inner)
  next kind =>
    refine takeOperand_of_alike abreast rfl (by simp) noStart' fun _ _ _ noStart' alike inner => ?_
    cases alike with
    | array empty =>
      obtain rfl := empty.mp rfl
      simp only [takeOperand, noStart', same, kind]
      exact .next (.intro .complete inner)
    | indexed =>
      unfold takeOperand
      rw [noStart']
      exact .refusedSecond
  next kind =>
    refine takeOperand_of_alike abreast rfl (by simp) noStart' fun _ _ _ noStart' alike inner => ?_
    cases alike with
    | key empty =>
      obtain rfl := empty.mp rfl
      simp only [takeOperand, noStart', same, kind]
      exact .next (.intro .complete inner)
  · exact .refused

theorem takeStatement_abreast (abreast : Abreast base .block within within')
    (same : token'.kind = token.kind) (done done' : List Tree) :
    (takeStatement done within token).Abreast base token token' tokens tokens'
      (takeStatement done' within' token') := by
  have inner : Abreast base .statement (.statements done :: within)
      (.statements done' :: within') := .within .statements abreast
  obtain ⟨some_, some_'⟩ := abreast.ne_nil
  simp only [takeStatement, same]
  split
  · exact .next (.intro .letWord inner)
  · exact .next (.intro .operand (.within .returning inner))
  · rw [if_neg (by simpa using some_), if_neg (by simpa using some_')]
    exact .next (.intro .closed abreast)
  · rw [if_neg (by simpa using some_)]
    exact .refused
  · rcases startOperand_abreast (.statement inner) same with
      ⟨state, state', start, start', led⟩ | ⟨none, none'⟩
    · rw [start, start']
      exact .next led
    · rw [none]
      exact .refused

theorem endStatement_abreast (abreast : Abreast base .block within within')
    (same : token'.kind = token.kind) (done done' : List Tree) (statement statement' : Tree) :
    (endStatement done within statement token).Abreast base token token' tokens tokens'
      (endStatement done' within' statement' token') := by
  simp only [endStatement, same]
  split
  · exact .next (.intro .separated (.within .statements abreast))
  · split
    · exact takeStatement_abreast abreast same _ _
    · exact .refused

theorem endExpression_abreast (abreast : Abreast base .expression frames frames')
    (same : token'.kind = token.kind) {tree tree' : Tree}
    (all : tokensWithin frames ++ tree.tokens = tokens)
    (all' : tokensWithin frames' ++ tree'.tokens = tokens') :
    (endExpression frames tree token).Abreast base token token' tokens tokens'
      (endExpression frames' tree' token') := by
  cases abreast with
  | base => exact .ended (by simpa using all) all' rfl rfl
  | @first operator _ _ isOperator _ =>
    cases operator <;> first | exact .refused | cases isOperator
  | @second operator _ _ isOperator _ =>
    cases operator <;> first | exact .refusedSecond | cases isOperator
  | statement inner =>
    cases inner with
    | within alike inner =>
      cases alike
      exact endStatement_abreast inner same _ _ _ _
  | within alike inner =>
    cases alike with
    | binding =>
      cases inner with
      | within alike inner =>
        cases alike
        exact endStatement_abreast inner same _ _ _ _
    | returning =>
      cases inner with
      | within alike inner =>
        cases alike
        exact endStatement_abreast inner same _ _ _ _
    | group =>
      simp only [endExpression, same]
      split
      · exact .next (.intro .complete inner)
      · exact .refused
    | condition =>
      simp only [endExpression, same]
      split
      · exact .next (.intro .blockAwaited (.within .consequence inner))
      · exact .refused
    | arguments =>
      simp only [endExpression, same]
      split
      · exact .next (.intro .operand (.within (.arguments (by simp)) inner))
      · exact .next (.intro .complete inner)
      · exact .refused
      · exact .refused
    | index =>
      simp only [endExpression, same]
      split
      · exact .next (.intro .complete inner)
      · exact .refused
    | array =>
      simp only [endExpression, same]
      split
      · exact .next (.intro .operand (.within (.array (by simp)) inner))
      · exact .next (.intro .complete inner)
      · exact .refused
      · exact .refused
    | key =>
      simp only [endExpression, same]
      split
      · exact .next (.intro .operand (.within .value inner))
      · exact .refused
    | value =>
      simp only [endExpression, same]
      split
      · exact .next (.intro .operand (.within (.key (by simp)) inner))
      · exact .next (.intro .complete inner)
      · exact .refused
    | called =>
      simp only [endExpression, same]
      split
      next kind =>
        simp only [kind]
        exact .next (.intro .complete inner)
      · exact .refused
    | indexed =>
      simp only [endExpression, same]
      split
      next kind =>
        simp only [kind]
        exact .refusedSecond
      next kind =>
        simp only [kind]
        exact .next (.intro .complete inner)
      · exact .refused
      · exact .refused

theorem endOperand_abreast {done : List Tree} {statement : Tree → Tree}
    (opens : OpenStatement base done statement)
    (abreast : Abreast base .expression frames frames') (same : token'.kind = token.kind)
    {operand operand' : Tree} (all : tokensWithin frames ++ operand.tokens = tokens)
    (all' : tokensWithin frames' ++ operand'.tokens = tokens') :
    (endOperand frames operand token).Abreast base token token' tokens tokens'
      (endOperand frames' operand' token') := by
  unfold endOperand
  rw [same]
  split
  · exact .next (.intro .operand (.within (.arguments Iff.rfl) abreast))
  · exact .next (.intro .operand (.within .index abreast))
  · have absorbed := (abreast.absorb_first (strength token.kind) operand).absorb_second opens
      (strength token.kind) operand'
    simp only
    split
    · refine endExpression_abreast absorbed same ?_ ?_
      · rw [absorb_keeps, all]
      · rw [absorb_keeps, all']
    · exact .next (.intro .operand (.first rfl (.second rfl absorbed)))

theorem endBlock_abreast {done : List Tree} {statement : Tree → Tree}
    (opens : OpenStatement base done statement)
    (abreast : Abreast base .block frames frames') (same : token'.kind = token.kind)
    {block block' : Tree} (all : tokensWithin frames ++ block.tokens = tokens)
    (all' : tokensWithin frames' ++ block'.tokens = tokens') :
    (endBlock frames block token).Abreast base token token' tokens tokens'
      (endBlock frames' block' token') := by
  by_cases noElse : token.kind = .elseWord
  · cases abreast with
    | within alike inner =>
      have noElse' : token'.kind = .elseWord := same.trans noElse
      cases alike with
      | consequence =>
        simp only [endBlock, noElse, noElse']
        exact .next (.intro .blockAwaited (.within .alternative inner))
      | _ =>
        simp only [endBlock, noElse]
        exact .refused
  · have noElse' : token'.kind ≠ .elseWord := by rwa [same]
    cases abreast with
    | within alike inner =>
      cases alike with
      | consequence =>
        rw [endBlock_consequence noElse, endBlock_consequence noElse']
        exact endOperand_abreast opens inner same (by simpa using all) (by simpa using all')
      | alternative =>
        rw [endBlock_alternative noElse, endBlock_alternative noElse']
        exact endOperand_abreast opens inner same (by simpa using all) (by simpa using all')
      | body =>
        rw [endBlock_body noElse, endBlock_body noElse']
        exact endOperand_abreast opens inner same (by simpa using all) (by simpa using all')

end Replies

/-- **The replies to a token of readers that stand abreast** lead on abreast, or one of them refuses
the token, or both statements end. -/
theorem State.Abreast.take {base : List Frame} {done : List Tree} {statement : Tree → Tree}
    (opens : OpenStatement base done statement) {state state' : State}
    (abreast : state.Abreast base state') {token token' : Token}
    (same : token'.kind = token.kind) :
    (state.take token).Abreast base token token' state.tokens state'.tokens
      (state'.take token') := by
  obtain ⟨point, frames⟩ := abreast
  cases point with
  | opened | separated =>
    cases frames with
    | within alike inner =>
      cases alike
      exact takeStatement_abreast inner same _ _
  | operand => exact takeOperand_abreast frames same
  | complete => exact endOperand_abreast opens frames same rfl rfl
  | closed => exact endBlock_abreast opens frames same rfl rfl
  | letWord =>
    simp only [State.take, same]
    split
    · exact .next (.intro .letName frames)
    · exact .refused
  | letName =>
    simp only [State.take, same]
    split
    · exact .next (.intro .operand (.within .binding frames))
    · exact .refused
  | fnWord =>
    simp only [State.take, same]
    split
    · exact .next (.intro .parametersOpened frames)
    · exact .refused
  | ifWord =>
    simp only [State.take, same]
    split
    · exact .next (.intro .operand (.within .condition frames))
    · exact .refused
  | parametersOpened =>
    simp only [State.take, same]
    split
    · exact .next (.intro .parameter frames)
    · exact .next (.intro .blockAwaited (.within .body frames))
    · exact .refused
  | parameter =>
    simp only [State.take, same]
    split
    · exact .next (.intro .parameterComma frames)
    · exact .next (.intro .blockAwaited (.within .body frames))
    · exact .refused
  | parameterComma =>
    simp only [State.take, same]
    split
    · exact .next (.intro .parameter frames)
    · exact .refused
  | blockAwaited =>
    simp only [State.take, same]
    split
    · exact .next (.intro .opened (.within .statements frames))
    · exact .refused

end Scriptlet.Reader
