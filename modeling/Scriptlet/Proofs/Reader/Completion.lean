/-
**What has been read can always be completed.**

* `Reader.Nested`: how constructs may be open within one another, by what is awaited in the
  innermost one: a statement, an expression or a block.
* `Reader.State.Placed`: what has just been read has its place within them.
* `Reader.Closes`: what completes an innermost construct of each kind.

Main statements: a reader that starts before a program stays placed (`State.Placed.take`), and from
every placed state there are tokens that complete a program (`State.Placed.completable`), by
induction on the nesting.
-/
import Scriptlet.Proofs.Reader.Completeness

namespace Scriptlet.Reader

/-- Open constructs, innermost first, in which something of the given role is being read. -/
inductive Nested : Role → List Frame → Prop
  | program (done : List Tree) : Nested .statement [.statements done]
  | block {outer : List Frame} (done : List Tree) : Nested .block outer →
      Nested .statement (.statements done :: outer)
  | consequence {outer : List Frame} (condition : Tree) : Nested .expression outer →
      Nested .block (.consequence condition :: outer)
  | alternative {outer : List Frame} (condition consequence : Tree) : Nested .expression outer →
      Nested .block (.alternative condition consequence :: outer)
  | body {outer : List Frame} (parameters : List Token) : Nested .expression outer →
      Nested .block (.body parameters :: outer)
  | statement {outer : List Frame} : Nested .statement outer → Nested .expression outer
  | binding {outer : List Frame} (name : Token) : Nested .statement outer →
      Nested .expression (.binding name :: outer)
  | returning {outer : List Frame} : Nested .statement outer →
      Nested .expression (.returning :: outer)
  | unary {outer : List Frame} (operator : Token) : Nested .expression outer →
      Nested .expression (.unary operator :: outer)
  | binary {outer : List Frame} {operator : Token} (left : Tree) : 0 < strength operator.kind →
      Nested .expression outer → Nested .expression (.binary left operator :: outer)
  | group {outer : List Frame} : Nested .expression outer → Nested .expression (.group :: outer)
  | arguments {outer : List Frame} (callee : Tree) (done : List Tree) : Nested .expression outer →
      Nested .expression (.arguments callee done :: outer)
  | index {outer : List Frame} (container : Tree) : Nested .expression outer →
      Nested .expression (.index container :: outer)
  | array {outer : List Frame} (done : List Tree) : Nested .expression outer →
      Nested .expression (.array done :: outer)
  | key {outer : List Frame} (done : List Tree) : Nested .expression outer →
      Nested .expression (.key done :: outer)
  | value {outer : List Frame} (done : List Tree) (key : Tree) : Nested .expression outer →
      Nested .expression (.value done key :: outer)
  | condition {outer : List Frame} : Nested .expression outer →
      Nested .expression (.condition :: outer)

namespace Nested

variable {within outer : List Frame} {done : List Tree}

/-- Statements are read among statements. -/
theorem exists_statements (nested : Nested .statement outer) :
    ∃ done within, outer = .statements done :: within := by
  cases nested with
  | program done => exact ⟨done, [], rfl⟩
  | block done _ => exact ⟨done, _, rfl⟩

/-- Statements may be added. -/
theorem restate (nested : Nested .statement (.statements done :: within)) (done' : List Tree) :
    Nested .statement (.statements done' :: within) := by
  cases nested with
  | program => exact .program done'
  | block _ inner => exact .block done' inner

/-- Statements within something are those of a block. -/
theorem block_of_within (nested : Nested .statement (.statements done :: within))
    (inner : within.isEmpty = false) : Nested .block within := by
  cases nested with
  | program => cases inner
  | block _ inner => exact inner

end Nested

/-- What has just been read has its place within the open constructs. -/
def State.Placed (state : State) : Prop :=
  match state.point with
  | .opened | .separated | .letWord | .letName _ => Nested .statement state.frames
  | .closed _ | .blockAwaited => Nested .block state.frames
  | .operand | .complete _ | .fnWord | .ifWord | .parametersOpened | .parameter _
  | .parameterComma _ => Nested .expression state.frames

/-- A reply leads to a placed state. -/
def Reply.Placed : Reply → Prop
  | .next state => state.Placed
  | .finished _ | .refused _ => True

/-- The reader is placed before a program. -/
theorem State.Placed.initial : State.initial.Placed :=
  Nested.program []

/-! ### One token -/

section Replies

variable {frames within : List Frame} {done : List Tree} {token : Token}

theorem absorb_nested (least : Nat) (operand : Tree) (nested : Nested .expression frames) :
    Nested .expression (absorb least frames operand).1 := by
  induction frames generalizing operand with
  | nil => exact nested
  | cons frame frames ih =>
    cases frame with
    | unary operator =>
      cases nested with
      | unary _ outer => exact ih _ outer
      | statement outer => cases outer
    | binary left operator =>
      rw [absorb]
      split
      · cases nested with
        | binary _ _ outer => exact ih _ outer
        | statement outer => cases outer
      · exact nested
    | _ => exact nested

theorem startOperand_placed (nested : Nested .expression frames) {state : State}
    (started : startOperand frames token = some state) : state.Placed := by
  unfold startOperand at started
  split at started <;> cases started
  · exact nested
  · exact nested
  · exact nested
  · exact nested
  · exact nested
  · exact nested.group
  · exact nested.array []
  · exact nested.key []
  · exact nested
  · exact nested
  · exact nested.unary token
  · exact nested.unary token

theorem takeOperand_placed (nested : Nested .expression frames) :
    (takeOperand frames token).Placed := by
  unfold takeOperand
  split
  next started => exact startOperand_placed nested started
  · split
    · cases nested with
      | arguments _ _ outer => exact outer
      | statement outer => cases outer
    · cases nested with
      | array _ outer => exact outer
      | statement outer => cases outer
    · cases nested with
      | key _ outer => exact outer
      | statement outer => cases outer
    · trivial

theorem takeStatement_placed (nested : Nested .statement (.statements done :: within)) :
    (takeStatement done within token).Placed := by
  simp only [takeStatement]
  split
  · exact nested
  · exact nested.returning
  · split
    · trivial
    next inner => exact nested.block_of_within (by simpa using inner)
  · split <;> trivial
  · split
    next started => exact startOperand_placed nested.statement started
    · trivial

theorem endStatement_placed (nested : Nested .statement (.statements done :: within))
    (statement : Tree) : (endStatement done within statement token).Placed := by
  have added := nested.restate (done ++ [statement])
  simp only [endStatement]
  split
  · exact added
  · split
    · exact takeStatement_placed added
    · trivial

theorem endExpression_placed {tree : Tree} (nested : Nested .expression frames) :
    (endExpression frames tree token).Placed := by
  unfold endExpression
  split
  · cases nested with
    | statement nested => exact endStatement_placed nested _
  · cases nested with
    | binding _ nested => exact endStatement_placed nested _
    | statement outer => cases outer
  · cases nested with
    | returning nested => exact endStatement_placed nested _
    | statement outer => cases outer
  · cases nested with
    | group outer => split <;> first | exact outer | trivial
    | statement outer => cases outer
  · cases nested with
    | arguments _ _ outer =>
      split
      · exact outer.arguments _ _
      · exact outer
      · trivial
      · trivial
    | statement outer => cases outer
  · cases nested with
    | index _ outer => split <;> first | exact outer | trivial
    | statement outer => cases outer
  · cases nested with
    | array _ outer =>
      split
      · exact outer.array _
      · exact outer
      · trivial
      · trivial
    | statement outer => cases outer
  · cases nested with
    | key _ outer => split <;> first | exact outer.value _ _ | trivial
    | statement outer => cases outer
  · cases nested with
    | value _ _ outer =>
      simp only
      split
      · exact outer.key _
      · exact outer
      · trivial
    | statement outer => cases outer
  · cases nested with
    | condition outer => split <;> first | exact outer.consequence _ | trivial
    | statement outer => cases outer
  · trivial

theorem endOperand_placed {operand : Tree} (nested : Nested .expression frames) :
    (endOperand frames operand token).Placed := by
  unfold endOperand
  split
  · exact nested.arguments _ _
  · exact nested.index _
  · have outer := absorb_nested (strength token.kind) operand nested
    simp only
    split
    · exact endExpression_placed outer
    next operator => exact outer.binary _ (Nat.pos_of_ne_zero operator)

theorem endBlock_placed {block : Tree} (nested : Nested .block frames) :
    (endBlock frames block token).Placed := by
  unfold endBlock
  split
  · cases nested with
    | consequence _ outer => exact outer.alternative _ _
  · trivial
  · cases nested with
    | consequence _ outer => exact endOperand_placed outer
  · cases nested with
    | alternative _ _ outer => exact endOperand_placed outer
  · cases nested with
    | body _ outer => exact endOperand_placed outer
  · trivial

end Replies

/-- **A token that is taken leaves the reader placed.** -/
theorem State.Placed.take {state : State} (placed : state.Placed) (token : Token) :
    (state.take token).Placed := by
  obtain ⟨frames, point⟩ := state
  cases point with
  | opened | separated =>
    obtain ⟨done, within, rfl⟩ := Nested.exists_statements placed
    exact takeStatement_placed placed
  | operand => exact takeOperand_placed placed
  | complete operand => exact endOperand_placed placed
  | closed block => exact endBlock_placed placed
  | letWord => simp only [State.take]; split <;> first | exact placed | trivial
  | letName name =>
    simp only [State.take]; split <;> first | exact Nested.binding name placed | trivial
  | fnWord => simp only [State.take]; split <;> first | exact placed | trivial
  | ifWord => simp only [State.take]; split <;> first | exact Nested.condition placed | trivial
  | parametersOpened =>
    simp only [State.take]
    split
    · exact placed
    · exact Nested.body [] placed
    · trivial
  | parameter done =>
    simp only [State.take]
    split
    · exact placed
    · exact Nested.body done placed
    · trivial
  | parameterComma done => simp only [State.take]; split <;> first | exact placed | trivial
  | blockAwaited => simp only [State.take]; split <;> first | exact Nested.block [] placed | trivial

/-! ### Completion -/

/-- Tokens that can be written complete a program. -/
def Completable (state : State) : Prop :=
  ∃ tokens program, (∀ token ∈ tokens, token.Plain) ∧ Reads state tokens program

/-- So do tokens that leave an operand before them whole. -/
def Closable (state : State) : Prop :=
  ∃ tokens program, (∀ token ∈ tokens, token.Plain) ∧ Follows 0 tokens ∧ Reads state tokens program

/-- A name. -/
def someName : Token :=
  ⟨.identifier, "x", default, 0⟩

theorem Closable.completable {state : State} (closable : Closable state) : Completable state := by
  obtain ⟨tokens, program, plain, -, reads⟩ := closable
  exact ⟨tokens, program, plain, reads⟩

/-- A mark leads to what can be completed. -/
theorem Completable.mark {state after : State} (kind : Kind)
    (spelled : (Token.mark kind).Plain) (awaited : state.awaited.contains kind = true)
    (taken : state.take (.mark kind) = .next after) (completable : Completable after) :
    Completable state := by
  obtain ⟨tokens, program, plain, reads⟩ := completable
  exact ⟨.mark kind :: tokens, program, List.forall_mem_cons.mpr ⟨spelled, plain⟩,
    .mark kind awaited taken reads⟩

/-- A mark that leaves an operand whole. -/
theorem Closable.mark {state after : State} (kind : Kind) (spelled : (Token.mark kind).Plain)
    (loose : kind ≠ .elseWord ∧ grip kind ≤ 0) (awaited : state.awaited.contains kind = true)
    (taken : state.take (.mark kind) = .next after) (completable : Completable after) :
    Closable state := by
  obtain ⟨tokens, program, plain, reads⟩ := completable
  exact ⟨.mark kind :: tokens, program, List.forall_mem_cons.mpr ⟨spelled, plain⟩,
    follows_mark loose, .mark kind awaited taken reads⟩

/-- A name leads to what can be completed. -/
theorem Completable.name {state after : State} (awaited : state.awaited.contains .identifier = true)
    (taken : state.take someName = .next after) (completable : Completable after) :
    Completable state := by
  obtain ⟨tokens, program, plain, reads⟩ := completable
  exact ⟨someName :: tokens, program, List.forall_mem_cons.mpr ⟨by decide, plain⟩,
    .next (List.contains_iff_mem.mp awaited) taken reads⟩

/-- After a block that needs no alternative its construct is a complete operand. -/
theorem Closable.of_closed {outer frames : List Frame} {block operand : Tree}
    (ended : ∀ token : Token, token.kind ≠ .elseWord →
      endBlock frames block token = endOperand outer operand token)
    (closable : Closable ⟨outer, .complete operand⟩) : Closable ⟨frames, .closed block⟩ := by
  obtain ⟨tokens, program, plain, follows, reads⟩ := closable
  exact ⟨tokens, program, plain, follows, .of_closed follows.noElse ended reads⟩

/-- What completes a program when something of the given role has been read. -/
def Closes : Role → List Frame → Prop
  | .statement, frames => ∀ {done within}, frames = .statements done :: within →
      ∀ {point}, AwaitsStatement point → ∀ done, Completable ⟨.statements done :: within, point⟩
  | .expression, frames => ∀ operand, Closable ⟨frames, .complete operand⟩
  | .block, frames => frames ≠ [] ∧ ∀ block, Closable ⟨frames, .closed block⟩
  | .program, _ | .pair, _ => True

/-- **What is open can be closed**, from the innermost construct outwards. -/
theorem Nested.closes {role : Role} {frames : List Frame} (nested : Nested role frames) :
    Closes role frames := by
  induction nested with
  | program =>
    rintro _ _ ⟨⟩ point awaits done
    refine ⟨[], .node .program done, fun token member => (by cases member), .finished ?_⟩
    rcases awaits with rfl | rfl <;> rfl
  | block _ _ ih =>
    rintro _ _ ⟨⟩ point awaits done
    obtain ⟨first, others, rfl⟩ := List.exists_cons_of_ne_nil ih.1
    refine .mark .closeBrace (by decide) ?_ ?_ (ih.2 (.node .block done)).completable
    · rcases awaits with rfl | rfl <;> rfl
    · rcases awaits with rfl | rfl <;> rfl
  | consequence condition _ ih =>
    exact ⟨by simp, fun block => .of_closed (fun _ noElse => endBlock_consequence noElse) (ih _)⟩
  | alternative condition consequence _ ih =>
    exact ⟨by simp, fun block => .of_closed (fun _ noElse => endBlock_alternative noElse) (ih _)⟩
  | body parameters _ ih =>
    exact ⟨by simp, fun block => .of_closed (fun _ noElse => endBlock_body noElse) (ih _)⟩
  | statement nested ih =>
    intro operand
    obtain ⟨done, within, rfl⟩ := nested.exists_statements
    exact .mark .semicolon (by decide) (by decide) rfl rfl (ih rfl (Or.inr rfl) _)
  | binding name nested ih =>
    intro operand
    obtain ⟨done, within, rfl⟩ := nested.exists_statements
    exact .mark .semicolon (by decide) (by decide) rfl rfl (ih rfl (Or.inr rfl) _)
  | returning nested ih =>
    intro operand
    obtain ⟨done, within, rfl⟩ := nested.exists_statements
    exact .mark .semicolon (by decide) (by decide) rfl rfl (ih rfl (Or.inr rfl) _)
  | unary operator _ ih =>
    intro operand
    obtain ⟨tokens, program, plain, follows, reads⟩ := ih (.node .unary [.leaf operator, operand])
    exact ⟨tokens, program, plain, follows, .of_unary (follows.mono (Nat.zero_le _)) reads⟩
  | @binary _ operator left binds _ ih =>
    intro operand
    obtain ⟨tokens, program, plain, follows, reads⟩ :=
      ih (.node .binary [left, .leaf operator, operand])
    exact ⟨tokens, program, plain, follows, .of_binary binds (follows.mono (Nat.zero_le _)) reads⟩
  | group _ ih =>
    exact fun operand => .mark .closeParen (by decide) (by decide) rfl rfl (ih _).completable
  | arguments callee done _ ih =>
    exact fun operand => .mark .closeParen (by decide) (by decide) rfl rfl (ih _).completable
  | index container _ ih =>
    exact fun operand => .mark .closeBracket (by decide) (by decide) rfl rfl (ih _).completable
  | array done _ ih =>
    exact fun operand => .mark .closeBracket (by decide) (by decide) rfl rfl (ih _).completable
  | key done _ ih =>
    intro operand
    refine .mark .colon (by decide) (by decide) rfl rfl ?_
    refine .mark .trueWord (by decide) rfl rfl ?_
    exact .mark .closeBrace (by decide) rfl rfl (ih _).completable
  | value done key _ ih =>
    exact fun operand => .mark .closeBrace (by decide) (by decide) rfl rfl (ih _).completable
  | condition _ ih =>
    intro operand
    have closed : Closable ⟨.consequence operand :: _, .closed (.node .block [])⟩ :=
      .of_closed (fun _ noElse => endBlock_consequence noElse) (ih _)
    refine .mark .closeParen (by decide) (by decide) rfl rfl ?_
    refine .mark .openBrace (by decide) rfl rfl ?_
    exact .mark .closeBrace (by decide) rfl rfl closed.completable

section Points

variable {frames : List Frame}

theorem Nested.completable_operand (nested : Nested .expression frames) :
    Completable ⟨frames, .operand⟩ := by
  obtain ⟨tokens, program, plain, -, reads⟩ :=
    nested.closes (.node .boolean [.leaf (.mark .trueWord)])
  refine ⟨.mark .trueWord :: tokens, program, List.forall_mem_cons.mpr ⟨by decide, plain⟩, ?_⟩
  exact .start rfl reads

theorem Nested.completable_block (nested : Nested .block frames) :
    Completable ⟨frames, .blockAwaited⟩ :=
  .mark .openBrace (by decide) rfl rfl ((nested.block []).closes rfl (Or.inl rfl) [])

theorem Nested.completable_parameter (nested : Nested .expression frames) (done : List Token) :
    Completable ⟨frames, .parameter done⟩ :=
  .mark .closeParen (by decide) rfl rfl (nested.body done).completable_block

theorem Nested.completable_letName (nested : Nested .statement frames) (name : Token) :
    Completable ⟨frames, .letName name⟩ :=
  .mark .assign (by decide) rfl rfl (nested.binding name).completable_operand

theorem Nested.completable_parameters (nested : Nested .expression frames) :
    Completable ⟨frames, .parametersOpened⟩ :=
  .mark .closeParen (by decide) rfl rfl (nested.body []).completable_block

end Points

/-- **From every placed state there are tokens that complete a program.** -/
theorem State.Placed.completable {state : State} (placed : state.Placed) : Completable state := by
  obtain ⟨frames, point⟩ := state
  cases point with
  | opened =>
    obtain ⟨done, within, rfl⟩ := Nested.exists_statements placed
    exact Nested.closes placed rfl (Or.inl rfl) done
  | separated =>
    obtain ⟨done, within, rfl⟩ := Nested.exists_statements placed
    exact Nested.closes placed rfl (Or.inr rfl) done
  | operand => exact Nested.completable_operand placed
  | complete operand => exact (Nested.closes placed operand).completable
  | closed block => exact ((Nested.closes placed).2 block).completable
  | letWord => exact .name rfl rfl (Nested.completable_letName placed someName)
  | letName name => exact Nested.completable_letName placed name
  | fnWord => exact .mark .openParen (by decide) rfl rfl (Nested.completable_parameters placed)
  | ifWord =>
    exact .mark .openParen (by decide) rfl rfl (Nested.condition placed).completable_operand
  | parametersOpened => exact Nested.completable_parameters placed
  | parameter done => exact Nested.completable_parameter placed done
  | parameterComma done =>
    exact .name rfl rfl (Nested.completable_parameter placed (done ++ [someName]))
  | blockAwaited => exact Nested.completable_block placed

end Scriptlet.Reader
