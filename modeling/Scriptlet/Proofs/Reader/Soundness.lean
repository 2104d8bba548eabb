/-
**The reader gives shaped trees only.**

* `Reader.State.Shaped`: what is in the open constructs of a reader, and what has just been read,
  has the shape of that part of a program.
* `Token.InRange`: a token that is no integer, or one of 64 bits at most.

Main statements: every token that is taken keeps a reader shaped (`Reader.State.Shaped.take`), and so
the tree of every program is shaped, with integers in range (`parse_shaped`).
-/
import Scriptlet.Proofs.Tree.Shape
import Scriptlet.Reader

namespace Scriptlet

/-- A token that the reader does not refuse for the number it stands for. -/
def Token.InRange (token : Token) : Prop :=
  Reader.rangeFault? token = none

/-- An integer in range can be read, and fits. -/
theorem Token.InRange.read {token : Token} (inRange : token.InRange)
    (integer : token.kind = .integer) :
    ∃ number, Number.read token.text = .ok number ∧ number ≤ Number.greatest := by
  simp only [InRange, Reader.rangeFault?, if_pos integer] at inRange
  split at inRange
  next number read =>
    split at inRange
    · cases inRange
    next fits => exact ⟨number, read, Int.not_lt.mp fits⟩
  · cases inRange

/-- Whether a token is in range does not depend on its place. -/
theorem Token.InRange.of_unplaced {token token' : Token} (inRange : token.InRange)
    (same : token'.unplaced = token.unplaced) : token'.InRange := by
  obtain ⟨kind, text⟩ : token'.kind = token.kind ∧ token'.text = token.text := by
    simpa [Token.unplaced] using same
  unfold InRange Reader.rangeFault? at inRange ⊢
  rw [kind, text]
  split
  next integer =>
    rw [if_pos integer] at inRange
    split
    next read =>
      rw [read] at inRange
      split
      next beyond => simp [beyond] at inRange
      · rfl
    next misread =>
      rw [misread] at inRange
      cases inRange
  · rfl

namespace Reader

open Scriptlet.Tree (Shaped)

variable {token : Token → Prop}

/-- A name of the program. -/
def IsName (token : Token → Prop) (name : Token) : Prop :=
  name.kind = .identifier ∧ token name

/-- What an open construct has so far is shaped. -/
def Frame.Shaped (token : Token → Prop) : Frame → Prop
  | .statements done => ∀ part ∈ done, Tree.Shaped token .statement part
  | .binding name => IsName token name
  | .unary operator => (operator.kind = .bang ∨ operator.kind = .minus) ∧ token operator
  | .binary left operator =>
    Tree.Shaped token .expression left ∧ 0 < strength operator.kind ∧ token operator
  | .arguments callee done =>
    Tree.Shaped token .expression callee ∧ ∀ part ∈ done, Tree.Shaped token .expression part
  | .index container => Tree.Shaped token .expression container
  | .array done => ∀ part ∈ done, Tree.Shaped token .expression part
  | .key done => ∀ part ∈ done, Tree.Shaped token .pair part
  | .value done first =>
    (∀ part ∈ done, Tree.Shaped token .pair part) ∧ Tree.Shaped token .expression first
  | .consequence test => Tree.Shaped token .expression test
  | .alternative test first => Tree.Shaped token .expression test ∧ Tree.Shaped token .block first
  | .body parameters => ∀ name ∈ parameters, IsName token name
  | .returning | .group | .condition => True

/-- What has just been read is shaped. -/
def Point.Shaped (token : Token → Prop) : Point → Prop
  | .complete tree => Tree.Shaped token .expression tree
  | .closed block => Tree.Shaped token .block block
  | .letName name => IsName token name
  | .parameter done | .parameterComma done => ∀ name ∈ done, IsName token name
  | .opened | .separated | .operand | .letWord | .fnWord | .ifWord | .parametersOpened
  | .blockAwaited => True

/-- All that a reader has read is shaped. -/
structure State.Shaped (token : Token → Prop) (state : State) : Prop where
  frames : ∀ frame ∈ state.frames, frame.Shaped token
  point : state.point.Shaped token

/-- A reply leads to a shaped reader, or to a shaped program. -/
def Reply.Shaped (token : Token → Prop) : Reply → Prop
  | .next state => state.Shaped token
  | .finished program => Tree.Shaped token .program program
  | .refused _ => True

/-- One more of a kind at the end. -/
theorem forall_mem_concat {α : Type} {holds : α → Prop} {done : List α} {last : α}
    (each : ∀ part ∈ done, holds part) (here : holds last) :
    ∀ part ∈ done ++ [last], holds part :=
  List.forall_mem_append.mpr ⟨each, List.forall_mem_singleton.mpr here⟩

/-! ### One token -/

section Replies

variable {frames : List Frame} {taken : Token}

/-- The operators before a complete operand take it as their right operand. -/
theorem absorb_shaped (least : Nat) {operand : Tree} (open_ : ∀ frame ∈ frames, frame.Shaped token)
    (here : operand.Shaped token .expression) :
    (∀ frame ∈ (absorb least frames operand).1, frame.Shaped token) ∧
      (absorb least frames operand).2.Shaped token .expression := by
  fun_induction absorb least frames operand with
  | case1 operand frames operator ih =>
    obtain ⟨⟨kind, holds⟩, outer⟩ := List.forall_mem_cons.mp open_
    exact ih outer (.unary kind holds here)
  | case2 operand left operator frames _ ih =>
    obtain ⟨⟨before, kind, holds⟩, outer⟩ := List.forall_mem_cons.mp open_
    exact ih outer (.binary kind holds before here)
  | case3 => exact ⟨open_, here⟩
  | case4 => exact ⟨open_, here⟩

theorem startOperand_shaped (open_ : ∀ frame ∈ frames, frame.Shaped token)
    (holds : taken.kind ≠ .ending → token taken) {state : State}
    (started : startOperand frames taken = some state) : state.Shaped token := by
  have own : ∀ {kind}, taken.kind = kind → kind ≠ .ending → token taken :=
    fun same other => holds (same ▸ other)
  unfold startOperand at started
  split at started <;> cases started
  next kind => exact ⟨open_, .integer kind (own kind (by decide))⟩
  next kind => exact ⟨open_, .string kind (own kind (by decide))⟩
  next kind => exact ⟨open_, .boolean (Or.inl kind) (own kind (by decide))⟩
  next kind => exact ⟨open_, .boolean (Or.inr kind) (own kind (by decide))⟩
  next kind => exact ⟨open_, .identifier kind (own kind (by decide))⟩
  · exact ⟨List.forall_mem_cons.mpr ⟨trivial, open_⟩, trivial⟩
  · exact ⟨List.forall_mem_cons.mpr ⟨fun _ member => (List.not_mem_nil member).elim, open_⟩,
      trivial⟩
  · exact ⟨List.forall_mem_cons.mpr ⟨fun _ member => (List.not_mem_nil member).elim, open_⟩,
      trivial⟩
  · exact ⟨open_, trivial⟩
  · exact ⟨open_, trivial⟩
  next kind =>
    exact ⟨List.forall_mem_cons.mpr ⟨⟨Or.inl kind, own kind (by decide)⟩, open_⟩, trivial⟩
  next kind =>
    exact ⟨List.forall_mem_cons.mpr ⟨⟨Or.inr kind, own kind (by decide)⟩, open_⟩, trivial⟩

theorem takeOperand_shaped (open_ : ∀ frame ∈ frames, frame.Shaped token)
    (holds : taken.kind ≠ .ending → token taken) : (takeOperand frames taken).Shaped token := by
  unfold takeOperand
  split
  next started => exact startOperand_shaped open_ holds started
  · split
    · obtain ⟨⟨callee, each⟩, outer⟩ := List.forall_mem_cons.mp open_
      exact ⟨outer, .call callee each⟩
    · obtain ⟨each, outer⟩ := List.forall_mem_cons.mp open_
      exact ⟨outer, .array each⟩
    · obtain ⟨each, outer⟩ := List.forall_mem_cons.mp open_
      exact ⟨outer, .hash each⟩
    · trivial

theorem takeStatement_shaped {done : List Tree} {within : List Frame}
    (each : ∀ part ∈ done, part.Shaped token .statement)
    (outer : ∀ frame ∈ within, frame.Shaped token)
    (holds : taken.kind ≠ .ending → token taken) :
    (takeStatement done within taken).Shaped token := by
  have open_ : ∀ frame ∈ Frame.statements done :: within, frame.Shaped token :=
    List.forall_mem_cons.mpr ⟨each, outer⟩
  simp only [takeStatement]
  split
  · exact ⟨open_, trivial⟩
  · exact ⟨List.forall_mem_cons.mpr ⟨trivial, open_⟩, trivial⟩
  · split
    · trivial
    · exact ⟨outer, .block each⟩
  · split
    · exact .program each
    · trivial
  · split
    next started => exact startOperand_shaped open_ holds started
    · trivial

theorem endStatement_shaped {done : List Tree} {within : List Frame} {statement : Tree}
    (each : ∀ part ∈ done, part.Shaped token .statement)
    (outer : ∀ frame ∈ within, frame.Shaped token) (here : statement.Shaped token .statement)
    (holds : taken.kind ≠ .ending → token taken) :
    (endStatement done within statement taken).Shaped token := by
  have all := forall_mem_concat each here
  simp only [endStatement]
  split
  · exact ⟨List.forall_mem_cons.mpr ⟨all, outer⟩, trivial⟩
  · split
    · exact takeStatement_shaped all outer holds
    · trivial

theorem endExpression_shaped {tree : Tree} (open_ : ∀ frame ∈ frames, frame.Shaped token)
    (here : tree.Shaped token .expression) (holds : taken.kind ≠ .ending → token taken) :
    (endExpression frames tree taken).Shaped token := by
  unfold endExpression
  split
  · obtain ⟨each, outer⟩ := List.forall_mem_cons.mp open_
    exact endStatement_shaped each outer (.expressing here) holds
  · obtain ⟨⟨kind, named⟩, inner⟩ := List.forall_mem_cons.mp open_
    obtain ⟨each, outer⟩ := List.forall_mem_cons.mp inner
    exact endStatement_shaped each outer (.binding kind named here) holds
  · obtain ⟨-, inner⟩ := List.forall_mem_cons.mp open_
    obtain ⟨each, outer⟩ := List.forall_mem_cons.mp inner
    exact endStatement_shaped each outer (.returning here) holds
  · obtain ⟨-, outer⟩ := List.forall_mem_cons.mp open_
    split
    · exact ⟨outer, here⟩
    · trivial
  · obtain ⟨⟨callee, each⟩, outer⟩ := List.forall_mem_cons.mp open_
    have all := forall_mem_concat each here
    split
    · exact ⟨List.forall_mem_cons.mpr ⟨⟨callee, all⟩, outer⟩, trivial⟩
    · exact ⟨outer, .call callee all⟩
    · trivial
    · trivial
  · obtain ⟨container, outer⟩ := List.forall_mem_cons.mp open_
    split
    · exact ⟨outer, .index container here⟩
    · trivial
  · obtain ⟨each, outer⟩ := List.forall_mem_cons.mp open_
    have all := forall_mem_concat each here
    split
    · exact ⟨List.forall_mem_cons.mpr ⟨all, outer⟩, trivial⟩
    · exact ⟨outer, .array all⟩
    · trivial
    · trivial
  · obtain ⟨each, outer⟩ := List.forall_mem_cons.mp open_
    split
    · exact ⟨List.forall_mem_cons.mpr ⟨⟨each, here⟩, outer⟩, trivial⟩
    · trivial
  · obtain ⟨⟨each, key⟩, outer⟩ := List.forall_mem_cons.mp open_
    have all := forall_mem_concat each (.pair key here)
    simp only
    split
    · exact ⟨List.forall_mem_cons.mpr ⟨all, outer⟩, trivial⟩
    · exact ⟨outer, .hash all⟩
    · trivial
  · obtain ⟨-, outer⟩ := List.forall_mem_cons.mp open_
    split
    · exact ⟨List.forall_mem_cons.mpr ⟨here, outer⟩, trivial⟩
    · trivial
  · trivial

theorem endOperand_shaped {operand : Tree} (open_ : ∀ frame ∈ frames, frame.Shaped token)
    (here : operand.Shaped token .expression) (holds : taken.kind ≠ .ending → token taken) :
    (endOperand frames operand taken).Shaped token := by
  unfold endOperand
  split
  · exact ⟨List.forall_mem_cons.mpr ⟨⟨here, fun _ member => (List.not_mem_nil member).elim⟩, open_⟩,
      trivial⟩
  · exact ⟨List.forall_mem_cons.mpr ⟨here, open_⟩, trivial⟩
  · obtain ⟨outer, taken'⟩ := absorb_shaped (strength taken.kind) open_ here
    simp only
    split
    · exact endExpression_shaped outer taken' holds
    next operator =>
      have holds : token taken := holds fun ending => operator (by rw [ending]; rfl)
      have frame : (Frame.binary (absorb (strength taken.kind) frames operand).2 taken).Shaped
          token := ⟨taken', Nat.pos_of_ne_zero operator, holds⟩
      exact ⟨List.forall_mem_cons.mpr ⟨frame, outer⟩, trivial⟩

theorem endBlock_shaped {block : Tree} (open_ : ∀ frame ∈ frames, frame.Shaped token)
    (here : block.Shaped token .block) (holds : taken.kind ≠ .ending → token taken) :
    (endBlock frames block taken).Shaped token := by
  unfold endBlock
  split
  · obtain ⟨condition, outer⟩ := List.forall_mem_cons.mp open_
    exact ⟨List.forall_mem_cons.mpr ⟨⟨condition, here⟩, outer⟩, trivial⟩
  · trivial
  · obtain ⟨condition, outer⟩ := List.forall_mem_cons.mp open_
    exact endOperand_shaped outer (.conditional condition here) holds
  · obtain ⟨⟨condition, consequence⟩, outer⟩ := List.forall_mem_cons.mp open_
    exact endOperand_shaped outer (.choice condition consequence here) holds
  · obtain ⟨each, outer⟩ := List.forall_mem_cons.mp open_
    exact endOperand_shaped outer (.function each here) holds
  · trivial

end Replies

/-- **A token that is taken keeps a reader shaped.** -/
theorem State.Shaped.take {state : State} (shaped : state.Shaped token) (taken : Token)
    (holds : taken.kind ≠ .ending → token taken) : (state.take taken).Shaped token := by
  obtain ⟨frames, point⟩ := state
  obtain ⟨open_, here⟩ := shaped
  have inner : ∀ {frame : Frame}, frame.Shaped token →
      ∀ other ∈ frame :: frames, other.Shaped token :=
    fun frame => List.forall_mem_cons.mpr ⟨frame, open_⟩
  cases point with
  | opened | separated =>
    simp only [State.take]
    split
    · obtain ⟨each, outer⟩ := List.forall_mem_cons.mp open_
      exact takeStatement_shaped each outer holds
    · trivial
  | operand => exact takeOperand_shaped open_ holds
  | complete operand => exact endOperand_shaped open_ here holds
  | closed block => exact endBlock_shaped open_ here holds
  | letWord =>
    simp only [State.take]
    split
    next kind => exact ⟨open_, kind, holds (by simp [kind])⟩
    · trivial
  | letName name =>
    simp only [State.take]
    split
    · exact ⟨inner here, trivial⟩
    · trivial
  | fnWord =>
    simp only [State.take]
    split
    · exact ⟨open_, trivial⟩
    · trivial
  | ifWord =>
    simp only [State.take]
    split
    · exact ⟨inner trivial, trivial⟩
    · trivial
  | parametersOpened =>
    simp only [State.take]
    split
    next kind => exact ⟨open_, List.forall_mem_singleton.mpr ⟨kind, holds (by simp [kind])⟩⟩
    · exact ⟨inner fun _ member => (List.not_mem_nil member).elim, trivial⟩
    · trivial
  | parameter done =>
    simp only [State.take]
    split
    · exact ⟨open_, here⟩
    · exact ⟨inner here, trivial⟩
    · trivial
  | parameterComma done =>
    simp only [State.take]
    split
    next kind => exact ⟨open_, forall_mem_concat here ⟨kind, holds (by simp [kind])⟩⟩
    · trivial
  | blockAwaited =>
    simp only [State.take]
    split
    · exact ⟨inner fun _ member => (List.not_mem_nil member).elim, trivial⟩
    · trivial

/-! ### Whole texts -/

/-- Before a program nothing has been read. -/
theorem State.Shaped.initial : State.initial.Shaped token where
  frames := List.forall_mem_singleton.mpr fun _ member => (List.not_mem_nil member).elim
  point := trivial

/-- A token that the reader takes without a fault is in range. -/
theorem takeToken_shaped {state after : State} (shaped : state.Shaped Token.InRange)
    {taken : Token} (read : takeToken state taken = .ok after) : after.Shaped Token.InRange := by
  unfold takeToken at read
  split at read
  · cases read
  next inRange =>
    have reply := shaped.take taken fun _ => inRange
    split at read
    next next_ =>
      rw [next_] at reply
      cases read
      exact reply
    · cases read
    · cases read

/-- What is read from a shaped reader on is a shaped program. -/
theorem readFrom_shaped {state : State} (shaped : state.Shaped Token.InRange)
    {last : Option Token} {place : Position} {passing : Nat} {chars : List Char} {program : Tree}
    (read : readFrom state last place passing chars = .ok program) :
    program.Shaped Token.InRange .program := by
  fun_induction readFrom state last place passing chars with
  | case1 state last place passing =>
    have reply := shaped.take ⟨.ending, "", default, 0⟩ fun other => absurd rfl other
    unfold takeEnd at read
    split at read
    next finished =>
      rw [finished] at reply
      cases read
      exact reply
    · cases read
    · cases read
  | case2 state last place c rest passing ih => exact ih shaped read
  | case3 => cases read
  | case4 _ _ _ _ _ _ _ _ _ ih => exact ih shaped read
  | case5 _ _ _ _ _ _ _ _ _ _ _ taken ih => exact ih (takeToken_shaped shaped taken) read
  | case6 => cases read

end Reader

/-- **The tree of every program is shaped**, and its integers are in range. -/
theorem parse_shaped {source : String} {program : Tree} (parsed : parse source = .ok program) :
    program.Shaped Token.InRange .program :=
  Reader.readFrom_shaped .initial parsed

end Scriptlet
