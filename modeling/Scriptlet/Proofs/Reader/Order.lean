/-
**The reader keeps every token, in order.**

* `Kind.isContent`: the kinds of tokens that a tree keeps: names, literals and operators. Words such
  as `let`, punctuation and layout leave the shape of the tree only.
* `Reader.State.tokens`: the tokens in the open constructs of a reader and in what it has just read,
  from left to right.

Main statements: a token that is taken comes after those that the reader has, if it is of a kind that
is kept, and nothing else changes (`State.take_keeps`); and so the tree of a program is shaped, its
tokens are as they stand in texts, and they are those of the text, each once and in order
(`parse_faithful`).
-/
import Scriptlet.Proofs.Reader.Accepts

namespace Scriptlet

/-- The kinds of tokens that a tree keeps. -/
def Kind.isContent : Kind → Bool
  | identifier | integer | string | trueWord | falseWord | equals | differs | less | greater | plus
  | minus | star | slash | bang => true
  | _ => false

/-- The tokens among some that a tree keeps. -/
def Token.contents (tokens : List Token) : List Token :=
  tokens.filter fun token => token.kind.isContent

/-- The first of the tokens is kept, or not, by itself. -/
theorem Token.contents_cons (token : Token) (rest : List Token) :
    contents (token :: rest) = contents [token] ++ contents rest :=
  List.filter_append [token] rest

namespace Reader

/-- The tokens that an open construct has so far. -/
@[simp] def Frame.tokens : Frame → List Token
  | .statements done | .array done | .key done => done.flatMap Tree.tokens
  | .binding name => [name]
  | .unary operator => [operator]
  | .binary left operator => left.tokens ++ [operator]
  | .arguments callee done => callee.tokens ++ done.flatMap Tree.tokens
  | .index container => container.tokens
  | .value done first => done.flatMap Tree.tokens ++ first.tokens
  | .consequence test => test.tokens
  | .alternative test first => test.tokens ++ first.tokens
  | .body parameters => parameters
  | .returning | .group | .condition => []

/-- The tokens of what has just been read. -/
@[simp] def Point.tokens : Point → List Token
  | .complete tree | .closed tree => tree.tokens
  | .letName name => [name]
  | .parameter done | .parameterComma done => done
  | .opened | .separated | .operand | .letWord | .fnWord | .ifWord | .parametersOpened
  | .blockAwaited => []

/-- The tokens of open constructs, the outermost first. -/
@[simp] def tokensWithin : List Frame → List Token
  | [] => []
  | frame :: outer => tokensWithin outer ++ frame.tokens

/-- The tokens that a reader has. -/
@[simp] def State.tokens (state : State) : List Token :=
  tokensWithin state.frames ++ state.point.tokens

/-- A reply leads to a reader, or to a program, that has just the given tokens. -/
@[simp] def Reply.Keeps (tokens : List Token) : Reply → Prop
  | .next state => state.tokens = tokens
  | .finished program => program.tokens = tokens
  | .refused _ => True

/-! ### One token -/

section Replies

variable {frames : List Frame} {token : Token}

/-- A token of a kind that no tree keeps. -/
theorem contents_of_kind {kind : Kind} (same : token.kind = kind)
    (dropped : kind.isContent = false) : Token.contents [token] = [] := by
  simp [Token.contents, same, dropped]

/-- A token of a kind that a tree keeps. -/
theorem contents_of_isContent (kept : token.kind.isContent = true) :
    Token.contents [token] = [token] := by
  simp [Token.contents, kept]

/-- Operators that take their operand keep its tokens and their own in order. -/
theorem absorb_keeps (least : Nat) (frames : List Frame) (operand : Tree) :
    tokensWithin (absorb least frames operand).1 ++ (absorb least frames operand).2.tokens =
      tokensWithin frames ++ operand.tokens := by
  fun_induction absorb least frames operand with
  | case1 operand frames operator ih => simpa using ih
  | case2 operand left operator frames _ ih => simpa using ih
  | case3 => rfl
  | case4 => rfl

theorem startOperand_keeps {state : State} (started : startOperand frames token = some state) :
    state.tokens = tokensWithin frames ++ Token.contents [token] := by
  unfold startOperand at started
  split at started <;> cases started
  all_goals
    next kind => simp [Token.contents, kind, Kind.isContent]

theorem takeOperand_keeps :
    (takeOperand frames token).Keeps (tokensWithin frames ++ Token.contents [token]) := by
  unfold takeOperand
  split
  next started => exact startOperand_keeps started
  · split
    next kind _ => simp [contents_of_kind kind rfl]
    next kind _ => simp [contents_of_kind kind rfl]
    next kind _ => simp [contents_of_kind kind rfl]
    · trivial

theorem takeStatement_keeps (done : List Tree) (within : List Frame) :
    (takeStatement done within token).Keeps
      (tokensWithin (.statements done :: within) ++ Token.contents [token]) := by
  simp only [takeStatement]
  split
  next kind => simp [contents_of_kind kind rfl]
  next kind => simp [contents_of_kind kind rfl]
  next kind =>
    split
    · trivial
    · simp [contents_of_kind kind rfl]
  next kind =>
    split
    next outermost =>
      rw [List.isEmpty_iff] at outermost
      simp [contents_of_kind kind rfl, outermost]
    · trivial
  · split
    next started => exact startOperand_keeps started
    · trivial

theorem endStatement_keeps (done : List Tree) (within : List Frame) (statement : Tree) :
    (endStatement done within statement token).Keeps
      (tokensWithin (.statements done :: within) ++ statement.tokens ++
        Token.contents [token]) := by
  simp only [endStatement]
  split
  next kind => simp [contents_of_kind kind rfl]
  · split
    · simpa using @takeStatement_keeps token (done ++ [statement]) within
    · trivial

theorem endExpression_keeps (tree : Tree) :
    (endExpression frames tree token).Keeps
      (tokensWithin frames ++ tree.tokens ++ Token.contents [token]) := by
  unfold endExpression
  split
  next done within => simpa using endStatement_keeps done within (.node .expressionStatement [tree])
  next name done within =>
    simpa using endStatement_keeps done within (.node .letStatement [.leaf name, tree])
  next done within => simpa using endStatement_keeps done within (.node .returnStatement [tree])
  · split
    next kind => simp [contents_of_kind kind rfl]
    · trivial
  · split
    next kind => simp [contents_of_kind kind rfl]
    next kind => simp [contents_of_kind kind rfl]
    · trivial
    · trivial
  · split
    next kind => simp [contents_of_kind kind rfl]
    · trivial
  · split
    next kind => simp [contents_of_kind kind rfl]
    next kind => simp [contents_of_kind kind rfl]
    · trivial
    · trivial
  · split
    next kind => simp [contents_of_kind kind rfl]
    · trivial
  · simp only
    split
    next kind => simp [contents_of_kind kind rfl]
    next kind => simp [contents_of_kind kind rfl]
    · trivial
  · split
    next kind => simp [contents_of_kind kind rfl]
    · trivial
  · trivial

theorem endOperand_keeps (operand : Tree) :
    (endOperand frames operand token).Keeps
      (tokensWithin frames ++ operand.tokens ++ Token.contents [token]) := by
  unfold endOperand
  split
  next kind => simp [contents_of_kind kind rfl]
  next kind => simp [contents_of_kind kind rfl]
  · rw [← absorb_keeps (strength token.kind)]
    simp only
    split
    · exact endExpression_keeps _
    next operator =>
      have kept : token.kind.isContent = true := by
        have binary : ∀ kind ∈ binaryKinds, kind.isContent = true := by decide
        exact binary _ (mem_binaryKinds (Nat.pos_of_ne_zero operator))
      simp [contents_of_isContent kept]

theorem endBlock_keeps (block : Tree) :
    (endBlock frames block token).Keeps
      (tokensWithin frames ++ block.tokens ++ Token.contents [token]) := by
  unfold endBlock
  split
  next kind => simp [contents_of_kind kind rfl]
  · trivial
  next condition outer _ =>
    simpa using @endOperand_keeps outer token (.node .conditional [condition, block])
  next condition consequence outer _ =>
    simpa using @endOperand_keeps outer token
      (.node .conditional [condition, consequence, block])
  next parameters outer _ =>
    simpa using @endOperand_keeps outer token
      (.node .function [.node .parameters (parameters.map .leaf), block])
  · trivial

end Replies

/-- **A token that is taken comes after those that the reader has**, if it is of a kind that is
kept. -/
theorem State.take_keeps (state : State) (token : Token) :
    (state.take token).Keeps (state.tokens ++ Token.contents [token]) := by
  obtain ⟨frames, point⟩ := state
  cases point with
  | opened | separated =>
    simp only [State.take]
    split
    next done within => simpa using takeStatement_keeps done within
    · trivial
  | operand =>
    show (takeOperand frames token).Keeps (tokensWithin frames ++ [] ++ Token.contents [token])
    rw [List.append_nil]
    exact takeOperand_keeps
  | complete operand => exact endOperand_keeps operand
  | closed block => exact endBlock_keeps block
  | letWord | letName | fnWord | ifWord | parametersOpened | parameter | parameterComma
  | blockAwaited =>
    simp only [State.take]
    split
    all_goals
      first
      | trivial
      | next kind => simp [Token.contents, kind, Kind.isContent]

/-! ### Whole texts -/

/-- Layout is kept in no tree. -/
theorem isContent_eq_false_of_isLayout {kind : Kind} (layout : kind.isLayout = true) :
    kind.isContent = false := by
  cases kind <;> first | rfl | cases layout

/-- The tokens of a program that is accepted come after those that the reader had, in the order of
the text. -/
theorem Accepts.tokens {state : State} {place : Position} {chars : List Char}
    {lexemes : List Lexeme} {program : Tree}
    (accepts : Accepts state place chars lexemes program) :
    program.tokens = state.tokens ++ Token.contents (Lexeme.tokensFrom place lexemes) := by
  induction accepts with
  | @ending state _ program finished =>
    have reply := state.take_keeps Reader.ending
    rw [finished] at reply
    exact reply
  | layout _ layout _ ih =>
    have dropped := isContent_eq_false_of_isLayout layout
    rw [ih]
    simp [Lexeme.tokensFrom, Token.contents, Lexeme.toToken, dropped]
  | @token state after place lexeme _ rest _ _ _ _ taken _ ih =>
    have reply := state.take_keeps (lexeme.toToken place)
    rw [taken] at reply
    have reply : after.tokens = state.tokens ++ Token.contents [lexeme.toToken place] := reply
    rw [ih, reply, List.append_assoc, ← Token.contents_cons]
    rfl

end Reader

/-- **A program is what its text says.** Its tree has the shape of a program at every node, and every
token in it is as it stands in texts: a name, an integer of 64 bits in decimal digits, a string
without a quotation mark, or the spelling of its kind. The reader finds lexemes that make up the
text, and the names, literals and operators among them are the tokens of the tree, none lost, none
repeated, and in the order of the text. -/
theorem parse_faithful {source : String} {program : Tree} (parsed : parse source = .ok program) :
    program.Shaped Token.Genuine .program ∧
      ∃ lexemes, Reader.Accepts .initial .start source.toList lexemes program ∧
        Lexeme.Covers lexemes source.toList ∧
        program.tokens = Token.contents (Lexeme.tokensFrom .start lexemes) := by
  obtain ⟨lexemes, accepts⟩ := Reader.accepts_of_parse parsed
  exact ⟨accepts.shaped .initial, lexemes, accepts, accepts.covers, accepts.tokens⟩

/-- A word is kept where only a name may stand, and a sign in a comment is not. -/
theorem parse_faithful_words :
    ∃ program, parse "let let = [1, \"a b\"]; // !\n-let < 2" = .ok program ∧
      program.Shaped Token.Genuine .program ∧
      program.tokens.map Token.text = ["let", "1", "a b", "-", "let", "<", "2"] ∧
      ∃ lexemes, Lexeme.Covers lexemes "let let = [1, \"a b\"]; // !\n-let < 2".toList ∧
        program.tokens = Token.contents (Lexeme.tokensFrom .start lexemes) := by
  have accepted : ∃ program, parse "let let = [1, \"a b\"]; // !\n-let < 2" = .ok program :=
    ⟨_, rfl⟩
  obtain ⟨program, accepted⟩ := accepted
  obtain ⟨shaped, lexemes, -, covers, tokens⟩ := parse_faithful accepted
  have texts : (parse "let let = [1, \"a b\"]; // !\n-let < 2").map
      (fun program => program.tokens.map Token.text) =
        .ok ["let", "1", "a b", "-", "let", "<", "2"] := by decide +kernel
  rw [accepted] at texts
  exact ⟨program, accepted, shaped, Except.ok.inj texts, lexemes, covers, tokens⟩

end Scriptlet
