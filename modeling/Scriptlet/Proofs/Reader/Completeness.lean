/-
**The reader reads every program from its tokens.**

* `Reader.Completes`: what it means, for a tree in a given role, that its tokens are read as the
  tree. For an expression: whatever constructs are open around it and whatever tokens follow, if
  neither takes it apart, then reading its tokens leads to where the expression is complete.

Main statement: `reads_spelled`, the tokens that a program is written in are read as this very
program, by induction on the shape of trees, with one lemma for lists with commas
(`reads_listed`) and one for statements (`reads_statements`).
-/
import Scriptlet.Proofs.Reader.Reads
import Scriptlet.Proofs.Tree.Shape

namespace Scriptlet.Reader

open Scriptlet.Tree (spelled spelledAll guarded listed)

attribute [local simp] spelled

/-- The tokens of a tree are read as the tree, whatever is open around it and whatever follows. -/
def Completes : Role → Tree → Prop
  | .program, tree => Reads .initial tree.spelled tree
  | .block, tree => ∀ {frames rest program}, frames ≠ [] →
      Reads ⟨frames, .closed tree⟩ rest program →
      Reads ⟨frames, .blockAwaited⟩ (tree.spelled ++ rest) program
  | .statement, tree => ∀ {done within point rest program}, AwaitsStatement point →
      Reads ⟨.statements (done ++ [tree]) :: within, .separated⟩ rest program →
      Reads ⟨.statements done :: within, point⟩ (tree.spelled ++ .mark .semicolon :: rest) program
  | .expression, tree => ∀ {frames rest program}, Open tree.rank frames →
      Follows tree.rank rest → Reads ⟨frames, .complete tree⟩ rest program →
      Reads ⟨frames, .operand⟩ (tree.spelled ++ rest) program
  | .pair, tree => ∀ {done frames rest program key value}, tree = .node .pair [key, value] →
      Follows 0 rest → Reads ⟨.value done key :: frames, .complete value⟩ rest program →
      Reads ⟨.key done :: frames, .operand⟩ (tree.spelled ++ rest) program

variable {frames : List Frame} {rest : List Token} {program : Tree}

/-! ### Expressions -/

/-- An expression is read within a construct that is no operator. -/
theorem Completes.within {tree : Tree} (completes : Completes .expression tree)
    (frames : List Frame) (open_ : ∀ rank, Open rank frames) (follows : Follows 0 rest)
    (reads : Reads ⟨frames, .complete tree⟩ rest program) :
    Reads ⟨frames, .operand⟩ (tree.spelled ++ rest) program :=
  completes (open_ _) (follows.mono (Nat.zero_le _)) reads

/-- An opening mark that starts an operand is taken where one is awaited. -/
theorem Reads.start {token : Token} {after : State}
    (started : startOperand frames token = some after) (reads : Reads after rest program) :
    Reads ⟨frames, .operand⟩ (token :: rest) program := by
  refine .next (mem_operandAwaited (startOperand_mem started)) ?_ reads
  show takeOperand frames token = .next after
  unfold takeOperand
  rw [started]

/-- An operand is read with the parentheses that it is given. -/
theorem Completes.guarded {operand : Tree} (completes : Completes .expression operand) (least : Nat)
    (frames : List Frame) (open_ : Open least frames) (follows : Follows least rest)
    (reads : Reads ⟨frames, .complete operand⟩ rest program) :
    Reads ⟨frames, .operand⟩ (guarded least operand operand.spelled ++ rest) program := by
  unfold Tree.guarded
  split
  next enough => exact completes (open_.mono enough) (follows.mono enough) reads
  · have closed : Reads ⟨.group :: frames, .complete operand⟩ (.mark .closeParen :: rest) program :=
      .mark .closeParen rfl rfl reads
    have opened : Reads ⟨frames, .operand⟩
        (.mark .openParen :: (operand.spelled ++ .mark .closeParen :: rest)) program :=
      .start rfl (completes.within _ (fun _ => trivial) (follows_mark (by decide)) closed)
    simpa using opened

/-! ### Lists with commas -/

/-- **A list with commas is read**, if each of its items is: `before` waits for an item after those
done, `between` has just read one, and a closing mark leads to `finish`. -/
theorem reads_listed {before finish : List Tree → State} {between : List Tree → Tree → State}
    {close : Kind} (loose : close ≠ .elseWord ∧ grip close ≤ 0) {trees : List Tree}
    (some : trees ≠ []) (done : List Tree)
    (each : ∀ tree ∈ trees, ∀ {done rest program}, Follows 0 rest →
      Reads (between done tree) rest program → Reads (before done) (tree.spelled ++ rest) program)
    (comma : ∀ tree ∈ trees, ∀ {done rest program}, Reads (before (done ++ [tree])) rest program →
      Reads (between done tree) (.mark .comma :: rest) program)
    (closed : ∀ tree ∈ trees, ∀ {done rest program}, Reads (finish (done ++ [tree])) rest program →
      Reads (between done tree) (.mark close :: rest) program)
    (reads : Reads (finish (done ++ trees)) rest program) :
    Reads (before done) (listed (spelledAll trees) ++ .mark close :: rest) program := by
  induction trees generalizing done with
  | nil => exact absurd rfl some
  | cons tree others ih =>
    have here : tree ∈ tree :: others := List.mem_cons_self
    cases others with
    | nil =>
      have last := each tree here (follows_mark loose) (closed tree here reads)
      simpa [listed, spelledAll] using last
    | cons second others =>
      have later := ih (by simp) (done ++ [tree])
        (fun other member => each other (List.mem_cons_of_mem _ member))
        (fun other member => comma other (List.mem_cons_of_mem _ member))
        (fun other member => closed other (List.mem_cons_of_mem _ member)) (by simpa using reads)
      have all := each tree here (follows_mark (by decide)) (comma tree here later)
      simpa [listed, spelledAll] using all

/-- A list with commas is read between brackets, with or without items. -/
theorem reads_enclosed (before : List Tree → State) (between : List Tree → Tree → State)
    (finish : List Tree → State) {close : Kind} (loose : close ≠ .elseWord ∧ grip close ≤ 0)
    {trees : List Tree}
    (each : ∀ tree ∈ trees, ∀ {done rest program}, Follows 0 rest →
      Reads (between done tree) rest program → Reads (before done) (tree.spelled ++ rest) program)
    (comma : ∀ tree ∈ trees, ∀ {done rest program}, Reads (before (done ++ [tree])) rest program →
      Reads (between done tree) (.mark .comma :: rest) program)
    (closed : ∀ tree ∈ trees, ∀ {done rest program}, Reads (finish (done ++ [tree])) rest program →
      Reads (between done tree) (.mark close :: rest) program)
    (empty : ∀ {rest program}, Reads (finish []) rest program →
      Reads (before []) (.mark close :: rest) program)
    (reads : Reads (finish trees) rest program) :
    Reads (before []) (listed (spelledAll trees) ++ .mark close :: rest) program := by
  cases trees with
  | nil => exact empty reads
  | cons => exact reads_listed loose (by simp) [] each comma closed reads

/-- Parameters are read up to the closing parenthesis. -/
theorem reads_parameters {parameters : List Token}
    (named : ∀ name ∈ parameters, name.kind = .identifier)
    (reads : Reads ⟨.body parameters :: frames, .blockAwaited⟩ rest program) :
    Reads ⟨frames, .parametersOpened⟩
      (listed (spelledAll (parameters.map .leaf)) ++ .mark .closeParen :: rest) program := by
  have further : ∀ {others done : List Token}, (∀ name ∈ others, name.kind = .identifier) →
      Reads ⟨.body (done ++ others) :: frames, .blockAwaited⟩ rest program →
      Reads ⟨frames, .parameter done⟩ (((spelledAll (others.map .leaf)).flatMap
        fun tokens => .mark .comma :: tokens) ++ .mark .closeParen :: rest) program := by
    intro others
    induction others with
    | nil =>
      intro done _ reads
      exact .mark .closeParen rfl rfl (by simpa using reads)
    | cons name others ih =>
      intro done named reads
      obtain ⟨kind, named⟩ := List.forall_mem_cons.mp named
      have taken : (⟨frames, .parameterComma done⟩ : State).take name =
          .next ⟨frames, .parameter (done ++ [name])⟩ := by
        simp only [State.take, kind]
      refine .mark .comma rfl rfl (.next ?_ taken (ih named (by simpa using reads)))
      rw [kind]
      exact List.mem_cons_self
  cases parameters with
  | nil => exact .mark .closeParen rfl rfl reads
  | cons name others =>
    obtain ⟨kind, named⟩ := List.forall_mem_cons.mp named
    have taken : (⟨frames, .parametersOpened⟩ : State).take name =
        .next ⟨frames, .parameter [name]⟩ := by
      simp only [State.take, kind]
    refine .next ?_ taken (further named (by simpa using reads))
    rw [kind]
    exact List.mem_cons_self

/-! ### Statements -/

/-- The statements of a program or of a block. -/
theorem reads_statements {statements : List Tree}
    (each : ∀ part ∈ statements, Completes .statement part) (done : List Tree)
    {within : List Frame} {point : Point} (awaits : AwaitsStatement point)
    (reads : ∀ {point}, AwaitsStatement point →
      Reads ⟨.statements (done ++ statements) :: within, point⟩ rest program) :
    Reads ⟨.statements done :: within, point⟩
      ((spelledAll statements).flatMap (· ++ [.mark .semicolon]) ++ rest) program := by
  induction statements generalizing done point with
  | nil => simpa [spelledAll] using reads awaits
  | cons statement others ih =>
    obtain ⟨here, each⟩ := List.forall_mem_cons.mp each
    have later := ih each (done ++ [statement]) (Or.inr rfl)
      (fun awaits => by simpa using reads awaits)
    have all := here awaits later
    simpa [spelledAll] using all

/-- The semicolon after the expression that a statement ends with. -/
theorem Completes.ended {value statement : Tree} (completes : Completes .expression value)
    (inner : List Frame) {done : List Tree} {within : List Frame}
    (open_ : ∀ rank, Open rank inner)
    (ends : (⟨inner, .complete value⟩ : State).take (.mark .semicolon) =
      .next ⟨.statements (done ++ [statement]) :: within, .separated⟩)
    (reads : Reads ⟨.statements (done ++ [statement]) :: within, .separated⟩ rest program) :
    Reads ⟨inner, .operand⟩ (value.spelled ++ .mark .semicolon :: rest) program :=
  completes.within inner open_ (follows_mark (by decide)) (.mark .semicolon rfl ends reads)

theorem Completes.binding {name : Token} {value : Tree} (kind : name.kind = .identifier)
    (completes : Completes .expression value) :
    Completes .statement (.node .letStatement [.leaf name, value]) := by
  intro done within point rest program awaits reads
  have read := completes.ended (.binding name :: .statements done :: within) (fun _ => trivial) rfl
    reads
  have taken : (⟨.statements done :: within, .letWord⟩ : State).take name =
      .next ⟨.statements done :: within, .letName name⟩ := by
    simp only [State.take, kind]
  have named := Reads.next (by rw [kind]; exact List.mem_cons_self) taken
    (.mark .assign rfl rfl read)
  have all := Reads.begin (.mark .letWord) awaits (by decide) rfl named
  simpa using all

theorem Completes.returning {value : Tree} (completes : Completes .expression value) :
    Completes .statement (.node .returnStatement [value]) := by
  intro done within point rest program awaits reads
  have read := completes.ended (.returning :: .statements done :: within) (fun _ => trivial) rfl
    reads
  have all := Reads.begin (.mark .returnWord) awaits (by decide) rfl read
  simpa using all

theorem Completes.expressing {value : Tree} (completes : Completes .expression value) :
    Completes .statement (.node .expressionStatement [value]) := by
  intro done within point rest program awaits reads
  have read := completes.ended (.statements done :: within) (fun _ => trivial) rfl reads
  simpa using Reads.statement_of_operand awaits read

/-! ### Operands -/

/-- An expression of one token. -/
theorem Completes.of_token {token : Token} {tree : Tree} (alone : tree.spelled = [token])
    (started : ∀ frames, startOperand frames token = some ⟨frames, .complete tree⟩) :
    Completes .expression tree := by
  intro frames rest program _ _ reads
  rw [alone]
  exact .start (started frames) reads

theorem Completes.unary {operator : Token} {right : Tree}
    (kind : operator.kind = .bang ∨ operator.kind = .minus)
    (completes : Completes .expression right) :
    Completes .expression (.node .unary [.leaf operator, right]) := by
  intro frames rest program _ follows reads
  have read := completes.guarded 5 (.unary operator :: frames) (Nat.le_refl 5) follows
    (.of_unary follows reads)
  have started : startOperand frames operator = some ⟨.unary operator :: frames, .operand⟩ := by
    rcases kind with kind | kind <;> simp only [startOperand, kind]
  simpa using Reads.start started read

theorem Completes.binary {left right : Tree} {operator : Token}
    (binds : 0 < strength operator.kind) (completesLeft : Completes .expression left)
    (completesRight : Completes .expression right) :
    Completes .expression (.node .binary [left, .leaf operator, right]) := by
  intro frames rest program open_ follows reads
  change Open (strength operator.kind) frames at open_
  change Follows (strength operator.kind) rest at follows
  obtain ⟨awaited, -⟩ := binaryKinds_spec _ (mem_binaryKinds binds)
  have second := completesRight.guarded (strength operator.kind + 1)
    (.binary left operator :: frames) (Nat.lt_succ_self _) (follows.mono (Nat.le_succ _))
    (.of_binary binds follows reads)
  have both := completesLeft.guarded _ frames open_ (follows_operator binds)
    (.next awaited (endOperand_operator binds open_) second)
  simpa using both

theorem Completes.conditional {condition consequence : Tree}
    (completes : Completes .expression condition) (block : Completes .block consequence) :
    Completes .expression (.node .conditional [condition, consequence]) := by
  intro frames rest program _ follows reads
  have closed : Reads ⟨.consequence condition :: frames, .closed consequence⟩ rest program :=
    reads.of_closed follows.noElse fun _ => endBlock_consequence
  have chosen := block (by simp) closed
  have tested := completes.within (.condition :: frames) (fun _ => trivial)
    (follows_mark (by decide)) (.mark .closeParen rfl rfl chosen)
  have all : Reads ⟨frames, .operand⟩ (.mark .ifWord :: .mark .openParen :: _) program :=
    .start rfl (.mark .openParen rfl rfl tested)
  simpa using all

theorem Completes.choice {condition consequence alternative : Tree}
    (completes : Completes .expression condition) (first : Completes .block consequence)
    (second : Completes .block alternative) :
    Completes .expression (.node .conditional [condition, consequence, alternative]) := by
  intro frames rest program _ follows reads
  have closed : Reads ⟨.alternative condition consequence :: frames, .closed alternative⟩ rest
      program := reads.of_closed follows.noElse fun _ => endBlock_alternative
  have other := second (by simp) closed
  have chosen : Reads ⟨.consequence condition :: frames, .blockAwaited⟩ _ program :=
    first (by simp) (.mark .elseWord rfl rfl other)
  have tested := completes.within (.condition :: frames) (fun _ => trivial)
    (follows_mark (by decide)) (.mark .closeParen rfl rfl chosen)
  have all : Reads ⟨frames, .operand⟩ (.mark .ifWord :: .mark .openParen :: _) program :=
    .start rfl (.mark .openParen rfl rfl tested)
  simpa using all

theorem Completes.function {parameters : List Token} {body : Tree}
    (named : ∀ name ∈ parameters, name.kind = .identifier) (block : Completes .block body) :
    Completes .expression (.node .function [.node .parameters (parameters.map .leaf), body]) := by
  intro frames rest program _ follows reads
  have closed : Reads ⟨.body parameters :: frames, .closed body⟩ rest program :=
    reads.of_closed follows.noElse fun _ => endBlock_body
  have listed := reads_parameters named (block (by simp) closed)
  have all : Reads ⟨frames, .operand⟩ (.mark .fnWord :: .mark .openParen :: _) program :=
    .start rfl (.mark .openParen rfl rfl listed)
  simpa using all

theorem Completes.index {container position : Tree}
    (completes : Completes .expression container) (inner : Completes .expression position) :
    Completes .expression (.node .index [container, position]) := by
  intro frames rest program _ _ reads
  have read := inner.within (.index container :: frames) (fun _ => trivial)
    (follows_mark (by decide)) (.mark .closeBracket rfl rfl reads)
  have all := completes.guarded 6 frames open_six (follows_mark (by decide))
    (.mark .openBracket rfl rfl read)
  simpa using all

/-! ### Operands with lists -/

theorem Completes.call {callee : Tree} {arguments : List Tree}
    (completes : Completes .expression callee)
    (each : ∀ part ∈ arguments, Completes .expression part) :
    Completes .expression (.node .call [callee, .node .arguments arguments]) := by
  intro frames rest program _ _ reads
  have listed := reads_enclosed (fun done => ⟨.arguments callee done :: frames, .operand⟩)
    (fun done tree => ⟨.arguments callee done :: frames, .complete tree⟩)
    (fun done => ⟨frames, .complete (.node .call [callee, .node .arguments done])⟩) (by decide)
    (fun tree member => Completes.within (each tree member) _ fun _ => trivial)
    (fun _ _ => .mark .comma rfl rfl) (fun _ _ => .mark .closeParen rfl rfl)
    (.mark .closeParen rfl rfl) reads
  have all := completes.guarded 6 frames open_six (follows_mark (by decide))
    (.mark .openParen rfl rfl listed)
  simpa using all

theorem Completes.array {elements : List Tree}
    (each : ∀ part ∈ elements, Completes .expression part) :
    Completes .expression (.node .array elements) := by
  intro frames rest program _ _ reads
  have listed := reads_enclosed (fun done => ⟨.array done :: frames, .operand⟩)
    (fun done tree => ⟨.array done :: frames, .complete tree⟩)
    (fun done => ⟨frames, .complete (.node .array done)⟩) (by decide)
    (fun tree member => Completes.within (each tree member) _ fun _ => trivial)
    (fun _ _ => .mark .comma rfl rfl) (fun _ _ => .mark .closeBracket rfl rfl)
    (.mark .closeBracket rfl rfl) reads
  have all : Reads ⟨frames, .operand⟩ (.mark .openBracket :: _) program := .start rfl listed
  simpa using all

theorem Completes.pair {key value : Tree} (completesKey : Completes .expression key)
    (completesValue : Completes .expression value) :
    Completes .pair (.node .pair [key, value]) := by
  intro done frames rest program _ _ same follows reads
  cases same
  have second := completesValue.within (.value done key :: frames) (fun _ => trivial) follows reads
  have both := completesKey.within (.key done :: frames) (fun _ => trivial)
    (follows_mark (by decide)) (.mark .colon rfl rfl second)
  simpa using both

/-- The state after a pair of a hash. -/
def afterPair (frames : List Frame) (done : List Tree) : Tree → State
  | .node .pair [key, value] => ⟨.value done key :: frames, .complete value⟩
  | _ => ⟨frames, .opened⟩

theorem Completes.hash {token : Token → Prop} {pairs : List Tree}
    (shaped : ∀ part ∈ pairs, part.Shaped token .pair)
    (each : ∀ part ∈ pairs, Completes .pair part) :
    Completes .expression (.node .hash pairs) := by
  intro frames rest program _ _ reads
  have formed : ∀ part ∈ pairs, ∃ key value, part = .node .pair [key, value] := by
    intro part member
    cases shaped part member with
    | pair => exact ⟨_, _, rfl⟩
  have listed := reads_enclosed (fun done => ⟨.key done :: frames, .operand⟩) (afterPair frames)
    (fun done => ⟨frames, .complete (.node .hash done)⟩) (by decide)
    (fun part member => by
      obtain ⟨key, value, rfl⟩ := formed part member
      exact each _ member rfl)
    (fun part member => by
      obtain ⟨key, value, rfl⟩ := formed part member
      exact .mark .comma rfl rfl)
    (fun part member => by
      obtain ⟨key, value, rfl⟩ := formed part member
      exact .mark .closeBrace rfl rfl)
    (.mark .closeBrace rfl rfl) reads
  have all : Reads ⟨frames, .operand⟩ (.mark .openBrace :: _) program := .start rfl listed
  simpa using all

/-! ### All trees -/

/-- **The tokens of a shaped tree are read as the tree.** -/
theorem Completes.of_shaped {token : Token → Prop} {role : Role} {tree : Tree}
    (shaped : tree.Shaped token role) : Completes role tree := by
  induction shaped with
  | @program statements _ each =>
    have ended : ∀ {point}, AwaitsStatement point →
        Reads ⟨[.statements statements], point⟩ [] (.node .program statements) := by
      intro point awaits
      rcases awaits with rfl | rfl
      · exact .finished rfl
      · exact .finished rfl
    have all := reads_statements each [] (Or.inl rfl) ended
    show Reads ⟨[.statements []], .opened⟩ _ _
    simpa using all
  | @block statements _ each =>
    intro frames rest program inside reads
    obtain ⟨frame, outer, rfl⟩ := List.exists_cons_of_ne_nil inside
    have ended : ∀ {point}, AwaitsStatement point →
        Reads ⟨.statements statements :: frame :: outer, point⟩ (.mark .closeBrace :: rest)
          program := by
      intro point awaits
      rcases awaits with rfl | rfl
      · exact .mark .closeBrace rfl rfl reads
      · exact .mark .closeBrace rfl rfl reads
    have all := reads_statements each [] (Or.inl rfl) ended
    have opened : Reads ⟨frame :: outer, .blockAwaited⟩ (.mark .openBrace :: _) program :=
      .mark .openBrace rfl rfl all
    simpa using opened
  | binding kind _ _ value => exact value.binding kind
  | returning _ value => exact value.returning
  | expressing _ value => exact value.expressing
  | integer kind _ | string kind _ | identifier kind _ =>
    exact Completes.of_token rfl fun frames => by simp only [startOperand, kind]
  | boolean kind _ =>
    refine Completes.of_token rfl fun frames => ?_
    rcases kind with kind | kind <;> simp only [startOperand, kind]
  | unary kind _ _ right => exact right.unary kind
  | binary binds _ _ _ left right => exact left.binary binds right
  | conditional _ _ condition consequence => exact condition.conditional consequence
  | choice _ _ _ condition consequence alternative =>
    exact condition.choice consequence alternative
  | function named _ body => exact body.function fun name member => (named name member).1
  | call _ _ callee each => exact callee.call each
  | index _ _ container position => exact container.index position
  | array _ each => exact Completes.array each
  | hash shaped each => exact Completes.hash shaped each
  | pair _ _ key value => exact key.pair value

/-- **The tokens that a program is written in are read as this very program.** -/
theorem reads_spelled {token : Token → Prop} {tree : Tree} (shaped : tree.Shaped token .program) :
    Reads .initial tree.spelled tree :=
  Completes.of_shaped shaped

end Scriptlet.Reader
