/-
**Reading a list of tokens.**

* `Reader.Reads`: from a state, the reader takes tokens one by one, each of them awaited, and then
  the end of the text, which finishes a program.
* `Reader.Follows`: the tokens after an operand that leave it whole, by the rank at which it holds
  together.
* `Reader.Open`: the constructs in which an operand of a rank is not taken apart.

Main statements: which token is taken decides everything (`Reads.congr`); an operator before a
complete operand takes it as soon as something follows that binds less (`Reads.of_unary`,
`Reads.of_binary`); and where a statement is awaited, an expression is read as an operand
(`Reads.statement_of_operand`).
-/
import Scriptlet.Proofs.Tree.Print

namespace Scriptlet.Reader

/-- The end of a text as a token. -/
def ending : Token :=
  ⟨.ending, "", default, 0⟩

/-- The reader takes tokens one by one and finishes a program at their end. -/
inductive Reads : State → List Token → Tree → Prop
  | finished {state : State} {program : Tree} : state.take ending = .finished program →
      Reads state [] program
  | next {state after : State} {token : Token} {rest : List Token} {program : Tree} :
      token.kind ∈ state.awaited → state.take token = .next after → Reads after rest program →
      Reads state (token :: rest) program

/-- The first of the tokens, or the end. -/
def leading (tokens : List Token) : Token :=
  tokens.headD ending

variable {frames : List Frame} {tokens rest : List Token} {program : Tree}

/-- **What the reader does with the first token decides everything.** -/
theorem Reads.congr {state other : State} (reads : Reads state tokens program)
    (awaited : ∀ kind ∈ state.awaited, kind ∈ other.awaited)
    (same : other.take (leading tokens) = state.take (leading tokens)) :
    Reads other tokens program := by
  cases reads with
  | finished done => exact .finished (same.trans done)
  | next found taken after => exact .next (awaited _ found) (same.trans taken) after

/-- A mark that is awaited is taken. -/
theorem Reads.mark {state after : State} (kind : Kind)
    (awaited : state.awaited.contains kind = true) (taken : state.take (.mark kind) = .next after)
    (reads : Reads after rest program) : Reads state (.mark kind :: rest) program :=
  .next (List.contains_iff_mem.mp awaited) taken reads

/-! ### What is awaited -/

/-- Whatever starts an operand is awaited where an operand is. -/
theorem mem_operandAwaited {kind : Kind} (starts : kind ∈ operandStart) :
    kind ∈ operandAwaited frames := by
  unfold operandAwaited
  split
  · exact List.mem_cons_of_mem _ starts
  · exact List.mem_cons_of_mem _ starts
  · exact List.mem_cons_of_mem _ starts
  · exact starts

/-- A token that starts an operand is of a kind that does. -/
theorem startOperand_mem {token : Token} {state : State}
    (started : startOperand frames token = some state) : token.kind ∈ operandStart := by
  unfold startOperand at started
  split at started
  case h_13 => cases started
  all_goals next kind => rw [kind]; decide

/-! ### What follows an operand -/

/-- How tightly a token holds the operand before it; brackets hold it tightest. -/
def grip : Kind → Nat
  | .openParen | .openBracket => 6
  | kind => strength kind

/-- Operators hold as tightly as they bind. -/
theorem strength_le_grip (kind : Kind) : strength kind ≤ grip kind := by
  unfold grip
  split
  · decide
  · decide
  · exact Nat.le_refl _

/-- The tokens leave an operand whole that holds together at the given rank. -/
structure Follows (rank : Nat) (tokens : List Token) : Prop where
  noElse : (leading tokens).kind ≠ .elseWord
  grip_le : grip (leading tokens).kind ≤ rank

/-- What leaves an operand whole leaves those whole that hold together more tightly. -/
theorem Follows.mono {least rank : Nat} (follows : Follows least tokens) (more : least ≤ rank) :
    Follows rank tokens :=
  ⟨follows.noElse, Nat.le_trans follows.grip_le more⟩

/-- A mark by itself leaves an operand whole. -/
theorem follows_mark {kind : Kind} {rank : Nat} (loose : kind ≠ .elseWord ∧ grip kind ≤ rank) :
    Follows rank (.mark kind :: rest) :=
  ⟨loose.1, loose.2⟩

/-- The kinds of binary operators. -/
def binaryKinds : List Kind :=
  [.equals, .differs, .less, .greater, .plus, .minus, .star, .slash]

/-- Only binary operators bind. -/
theorem mem_binaryKinds {kind : Kind} (binds : 0 < strength kind) : kind ∈ binaryKinds := by
  cases kind <;> first | decide | cases binds

/-- What is known of each binary operator. -/
theorem binaryKinds_spec : ∀ kind ∈ binaryKinds,
    kind ∈ afterOperand ∧ kind ≠ .elseWord ∧ grip kind = strength kind ∧ strength kind ≤ 4 := by
  decide

/-- A binary operator leaves an operand whole that holds together as tightly as it binds. -/
theorem follows_operator {operator : Token} (binds : 0 < strength operator.kind) :
    Follows (strength operator.kind) (operator :: rest) := by
  obtain ⟨-, noElse, grip, -⟩ := binaryKinds_spec _ (mem_binaryKinds binds)
  exact ⟨noElse, Nat.le_of_eq grip⟩

/-! ### Operators that wait for their operand -/

/-- An operand of the rank may be read within the constructs without being taken apart. -/
def Open (rank : Nat) : List Frame → Prop
  | .unary _ :: _ => 5 ≤ rank
  | .binary _ operator :: _ => strength operator.kind < rank
  | _ => True

/-- Operands that hold together more tightly may be read as well. -/
theorem Open.mono {least rank : Nat} (open_ : Open least frames) (more : least ≤ rank) :
    Open rank frames := by
  unfold Open at open_ ⊢
  split
  · exact Nat.le_trans open_ more
  · exact Nat.lt_of_lt_of_le open_ more
  · trivial

/-- An operand that holds together tightest may be read anywhere. -/
theorem open_six : Open 6 frames := by
  unfold Open
  split
  · decide
  next operator _ =>
    refine Nat.lt_of_le_of_lt (m := 4) ?_ (by decide)
    unfold strength
    split <;> decide
  · trivial

/-- No operator takes an operand that holds together more tightly than it binds. -/
theorem absorb_of_open {rank : Nat} (open_ : Open rank frames) (below : rank < 5) (operand : Tree) :
    absorb rank frames operand = (frames, operand) := by
  unfold absorb
  split
  · exact absurd open_ (Nat.not_le_of_lt below)
  · exact if_neg (Nat.not_le_of_lt open_)
  · rfl

/-- The reply to a token that is no opening bracket. -/
theorem endOperand_eq {operand : Tree} {token : Token} (loose : grip token.kind ≤ 5) :
    endOperand frames operand token =
      if strength token.kind = 0 then
        endExpression (absorb (strength token.kind) frames operand).1
          (absorb (strength token.kind) frames operand).2 token
      else
        .next ⟨.binary (absorb (strength token.kind) frames operand).2 token ::
          (absorb (strength token.kind) frames operand).1, .operand⟩ := by
  unfold endOperand
  split
  next bracket => simp [bracket, grip] at loose
  next bracket => simp [bracket, grip] at loose
  · rfl

/-- A binary operator goes on with a complete operand that no operator before takes. -/
theorem endOperand_operator {operand : Tree} {operator : Token}
    (binds : 0 < strength operator.kind) (open_ : Open (strength operator.kind) frames) :
    endOperand frames operand operator = .next ⟨.binary operand operator :: frames, .operand⟩ := by
  obtain ⟨-, -, grip, least⟩ := binaryKinds_spec _ (mem_binaryKinds binds)
  rw [endOperand_eq (by omega), if_neg (Nat.ne_of_gt binds), absorb_of_open open_ (by omega)]

/-- A unary operator takes a complete operand that what follows leaves whole. -/
theorem Reads.of_unary {operator : Token} {right : Tree} (follows : Follows 5 rest)
    (reads : Reads ⟨frames, .complete (.node .unary [.leaf operator, right])⟩ rest program) :
    Reads ⟨.unary operator :: frames, .complete right⟩ rest program := by
  refine reads.congr (fun kind awaited => awaited) ?_
  show endOperand _ _ _ = endOperand _ _ _
  rw [endOperand_eq follows.grip_le, endOperand_eq follows.grip_le]
  rfl

/-- A binary operator takes a complete operand when what follows binds no more tightly. -/
theorem Reads.of_binary {left right : Tree} {operator : Token}
    (binds : 0 < strength operator.kind) (follows : Follows (strength operator.kind) rest)
    (reads : Reads ⟨frames, .complete (.node .binary [left, .leaf operator, right])⟩ rest program) :
    Reads ⟨.binary left operator :: frames, .complete right⟩ rest program := by
  obtain ⟨-, -, -, least⟩ := binaryKinds_spec _ (mem_binaryKinds binds)
  have loose : grip (leading rest).kind ≤ 5 := Nat.le_trans follows.grip_le (by omega)
  have weaker : strength (leading rest).kind ≤ strength operator.kind :=
    Nat.le_trans (strength_le_grip _) follows.grip_le
  refine reads.congr (fun kind awaited => awaited) ?_
  show endOperand _ _ _ = endOperand _ _ _
  rw [endOperand_eq loose, endOperand_eq loose, absorb_of_le weaker]

/-! ### Statements and blocks -/

/-- The places where a statement is awaited. -/
def AwaitsStatement (point : Point) : Prop :=
  point = .opened ∨ point = .separated

/-- An operand at the start of a statement. -/
theorem takeOperand_statements (done : List Tree) (within : List Frame) (token : Token) :
    takeOperand (.statements done :: within) token =
      match startOperand (.statements done :: within) token with
      | some state => .next state
      | none => .refused operandStart := by
  unfold takeOperand
  cases startOperand (.statements done :: within) token <;> rfl

/-- A token that starts a statement is taken where one is awaited. -/
theorem Reads.begin {done : List Tree} {within : List Frame} {point : Point} (token : Token)
    {after : State} (awaits : AwaitsStatement point) (starts : token.kind ∈ statementStart)
    (taken : takeStatement done within token = .next after) (reads : Reads after rest program) :
    Reads ⟨.statements done :: within, point⟩ (token :: rest) program := by
  rcases awaits with rfl | rfl
  · exact .next (List.mem_cons_of_mem _ starts) taken reads
  · exact .next (List.mem_cons_of_mem _ (List.mem_cons_of_mem _ starts)) taken reads

/-- **Where a statement is awaited, an expression is read as an operand.** -/
theorem Reads.statement_of_operand {done : List Tree} {within : List Frame} {point : Point}
    (awaits : AwaitsStatement point)
    (reads : Reads ⟨.statements done :: within, .operand⟩ tokens program) :
    Reads ⟨.statements done :: within, point⟩ tokens program := by
  cases reads with
  | finished end_ => cases end_
  | @next _ after token rest _ _ taken reads =>
    obtain started : startOperand (.statements done :: within) token = some after := by
      have replied : takeOperand (.statements done :: within) token = .next after := taken
      rw [takeOperand_statements] at replied
      split at replied
      next state started =>
        cases replied
        exact started
      · cases replied
    have starts := startOperand_mem started
    have others : ∀ kind ∈ operandStart, kind ∉ [.letWord, .returnWord, .closeBrace, .ending] := by
      decide
    have begun : takeStatement done within token = .next after := by
      rw [takeStatement_eq (others _ starts), started]
    have statement : token.kind ∈ statementStart :=
      List.mem_cons_of_mem _ (List.mem_cons_of_mem _ starts)
    exact .begin token awaits statement begun reads

/-- After a block that no alternative follows, its construct is a complete operand. -/
theorem Reads.of_closed {block operand : Tree} {outer : List Frame}
    (noElse : (leading rest).kind ≠ .elseWord)
    (ended : ∀ token : Token, token.kind ≠ .elseWord →
      endBlock frames block token = endOperand outer operand token)
    (reads : Reads ⟨outer, .complete operand⟩ rest program) :
    Reads ⟨frames, .closed block⟩ rest program :=
  reads.congr (fun _ awaited => List.mem_cons_of_mem _ awaited) (ended _ noElse)

end Scriptlet.Reader
