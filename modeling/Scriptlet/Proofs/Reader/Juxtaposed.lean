/-
**Programs put one after another, a line for each.**

A line break ends no statement. A program that follows another one on the next line is read as it
is by itself, if the first one ends in a semicolon or what comes next does not go on with an
operand; and where it does, the last statement of the first program and the first one of the
second are read as one.

* `Tree.Continues`: what the second case makes of two programs; `Reader.Continued`, the same while
  the statement goes on.

Main statement: `parse_juxtaposed`. What follows where a program may end is read as after a
semicolon (`Reader.read_of_finished`), or else from then on two readers stand abreast
(`Reader.State.Abreast.take`) until both statements end, and then they are in programs that differ
in what came before (`Reader.Accepts.trails`).
-/
import Scriptlet.Proofs.Reader.Abreast
import Scriptlet.Proofs.Reader.FirstWrong
import Scriptlet.Proofs.Reader.Joined

namespace Scriptlet

/-- The last statement of the first program goes on with the first one of the second program, and
has the tokens of both. -/
def Tree.Continues (one two program : Tree) : Prop :=
  ∃ before last first rest continued,
    one.children = before ++ [last] ∧ two.children = first :: rest ∧
      program.unplaced = (Tree.node .program (before ++ continued :: rest)).unplaced ∧
      continued.label? = last.label? ∧
      continued.tokens.map Token.unplaced = (last.tokens ++ first.tokens).map Token.unplaced

namespace Reader

/-! ### After different statements -/

section Trails

variable {earlier earlier' : List Tree} {state state' bare : State} {token token' : Token}

/-- A reader in a program with earlier statements replies as it does without them, places aside. -/
theorem take_of_underlay (placed : bare.Placed)
    (alike : state.unplaced = (bare.underlay earlier).unplaced)
    (same : token'.unplaced = token.unplaced) :
    (state.take token').unplaced = ((bare.take token).underlay earlier).unplaced := by
  rw [← State.take_unplaced, alike, same, State.take_unplaced, placed.take_underlay]

theorem next_of_underlay (placed : bare.Placed)
    (alike : state.unplaced = (bare.underlay earlier).unplaced)
    (same : token'.unplaced = token.unplaced) {next : State}
    (taken : state.take token' = .next next) :
    ∃ after, bare.take token = .next after ∧
      next.unplaced = (after.underlay earlier).unplaced := by
  have replies := take_of_underlay placed alike same
  rw [taken] at replies
  cases reply : bare.take token with
  | next after =>
    rw [reply] at replies
    exact ⟨after, rfl, Reply.next.inj replies⟩
  | finished | refused =>
    rw [reply] at replies
    cases replies

theorem finished_of_underlay (placed : bare.Placed)
    (alike : state.unplaced = (bare.underlay earlier).unplaced) {program : Tree}
    (finished : state.take ending = .finished program) :
    ∃ alone, bare.take ending = .finished alone ∧
      program.unplaced = (Tree.node .program (earlier ++ alone.children)).unplaced := by
  have replies := @take_of_underlay _ _ _ ending ending placed alike rfl
  rw [finished] at replies
  cases reply : bare.take ending with
  | finished alone =>
    rw [reply] at replies
    exact ⟨alone, rfl, Reply.finished.inj replies⟩
  | next | refused =>
    rw [reply] at replies
    cases replies

namespace Accepts

variable {place place' : Position} {chars : List Char} {lexemes lexemes' : List Lexeme}
  {program program' : Tree}

/-- **After different statements, the same text adds the same ones.** -/
theorem trails (accepts : Accepts state place chars lexemes program)
    (accepts' : Accepts state' place' chars lexemes' program') (placed : bare.Placed)
    (alike : state.unplaced = (bare.underlay earlier).unplaced)
    (alike' : state'.unplaced = (bare.underlay earlier').unplaced) :
    ∃ rest, program.unplaced = (Tree.node .program (earlier ++ rest)).unplaced ∧
      program'.unplaced = (Tree.node .program (earlier' ++ rest)).unplaced := by
  induction accepts generalizing bare state' place' lexemes' with
  | ending finished =>
    obtain ⟨alone, reply, same⟩ := finished_of_underlay placed alike finished
    obtain ⟨alone', reply', same'⟩ :=
      finished_of_underlay placed alike' accepts'.finished_of_nil
    cases reply.symm.trans reply'
    exact ⟨alone.children, same, same'⟩
  | layout found layout _ ih =>
    obtain ⟨_, rfl, ⟨-, inner⟩ | ⟨solid, -⟩⟩ :=
      accepts'.of_scan (Lexeme.scan_of_layout found layout _)
    · exact ih inner placed alike alike'
    · cases layout.symm.trans solid
  | @token state next place lexeme chars _ _ found solid _ taken _ ih =>
    have awaited : state'.awaited = state.awaited := by
      rw [← State.awaited_unplaced, alike', State.awaited_unplaced, State.awaited_underlay,
        ← State.awaited_unplaced state, alike, State.awaited_unplaced, State.awaited_underlay]
    obtain ⟨_, rfl, ⟨layout, -⟩ | ⟨-, next', taken', inner⟩⟩ := accepts'.of_scan (awaited ▸ found)
    · cases layout.symm.trans solid
    · have moved : (lexeme.toToken place').unplaced = (lexeme.toToken place).unplaced := rfl
      obtain ⟨after, reply, same⟩ := next_of_underlay placed alike rfl taken
      obtain ⟨after', reply', same'⟩ := next_of_underlay placed alike' moved taken'
      cases reply.symm.trans reply'
      have placedAfter := placed.take (lexeme.toToken place)
      rw [reply] at placedAfter
      exact ih inner placedAfter same same'

end Accepts

/-- What ends two statements leads on alike after them. -/
theorem endStatement_trails {done done' : List Tree} {statement statement' : Tree}
    {next next' : State} (same : token'.unplaced = token.unplaced)
    (taken : endStatement done [] statement token = .next next)
    (taken' : endStatement done' [] statement' token' = .next next') :
    ∃ bare : State, bare.Placed ∧ next.unplaced = (bare.underlay (done ++ [statement])).unplaced ∧
      next'.unplaced = (bare.underlay (done' ++ [statement'])).unplaced := by
  have bare : ∀ done, (⟨[.statements done], .separated⟩ : State).unplaced =
      ((⟨[.statements []], .separated⟩ : State).underlay done).unplaced := by
    simp [State.underlay, underlay, behind]
  have placed : (⟨[.statements []], .separated⟩ : State).Placed := Nested.program []
  have kinds : token'.unplaced.kind = token.unplaced.kind := congrArg Token.kind same
  have kinds : token'.kind = token.kind := kinds
  unfold endStatement at taken taken'
  rw [kinds] at taken'
  by_cases semicolon : token.kind = .semicolon
  · simp only [semicolon, if_true] at taken taken'
    cases taken
    cases taken'
    exact ⟨_, placed, bare _, bare _⟩
  by_cases follows : token.kind ∈ afterStatement
  · simp only [semicolon, follows, if_true, if_false] at taken taken'
    obtain ⟨after, reply, alike⟩ :=
      @next_of_underlay _ ⟨[.statements (done ++ [statement])], .separated⟩ _ _ _ placed (bare _)
        rfl next taken
    obtain ⟨after', reply', alike'⟩ :=
      @next_of_underlay _ ⟨[.statements (done' ++ [statement'])], .separated⟩ _ _ _ placed (bare _)
        same next' taken'
    cases reply.symm.trans reply'
    have placedAfter := placed.take token
    rw [reply] at placedAfter
    exact ⟨after, placedAfter, alike, alike'⟩
  · simp only [semicolon, follows, if_false] at taken
    cases taken

end Trails

/-! ### Until both statements end -/

/-- The tokens after one more of them. -/
theorem tokens_of_next {state next : State} {token : Token}
    (taken : state.take token = .next next) :
    next.tokens = state.tokens ++ Token.contents [token] := by
  have kept := state.take_keeps token
  rwa [taken] at kept

/-- Whether a token is kept does not depend on its place. -/
theorem contents_unplaced {token token' : Token} (same : token'.unplaced = token.unplaced) :
    (Token.contents [token']).map Token.unplaced = (Token.contents [token]).map Token.unplaced := by
  have kinds : token'.unplaced.kind = token.unplaced.kind := congrArg Token.kind same
  have kinds : token'.kind = token.kind := kinds
  unfold Token.contents
  rw [List.filter_cons, List.filter_cons, kinds]
  split
  · rw [List.filter_nil, List.map_cons, List.map_cons, same]
  · rfl

/-- A statement has the tokens before it and those of its expression. -/
theorem OpenStatement.tokens {base : List Frame} {done : List Tree} {statement : Tree → Tree}
    (opens : OpenStatement base done statement) (tree : Tree) :
    tokensWithin base ++ tree.tokens = done.flatMap Tree.tokens ++ (statement tree).tokens := by
  cases opens <;> simp

section Continued

variable {base : List Frame} {done : List Tree} {statement : Tree → Tree} {state state' : State}
  {place place' : Position} {chars : List Char} {lexemes lexemes' : List Lexeme}
  {program program' : Tree} {before : List Token}

/-- The second program goes on after `done` with a statement, which has tokens of its own and
those of the first statement of the first program, and then with the others of the first program.
-/
def Continued (done : List Tree) (statement : Tree → Tree) (before : List Token)
    (program program' : Tree) : Prop :=
  ∃ tree tree' rest,
    program.unplaced = (Tree.node .program (.node .expressionStatement [tree] :: rest)).unplaced ∧
    program'.unplaced = (Tree.node .program (done ++ statement tree' :: rest)).unplaced ∧
    (done.flatMap Tree.tokens ++ (statement tree').tokens).map Token.unplaced =
      before ++ tree.tokens.map Token.unplaced

/-- **Readers that stand abreast read a text as statements that end together**, and then alike. -/
theorem Accepts.abreast (opens : OpenStatement base done statement)
    (accepts : Accepts state place chars lexemes program)
    (accepts' : Accepts state' place' chars lexemes' program') (abreast : state.Abreast base state')
    (tokens : state'.tokens.map Token.unplaced = before ++ state.tokens.map Token.unplaced) :
    Continued done statement before program program' := by
  -- what is read until the end of the statements: each side has its own expression
  have ended : ∀ {state state' : State} {tree tree' : Tree},
      state'.tokens.map Token.unplaced = before ++ state.tokens.map Token.unplaced →
      tree.tokens = state.tokens → tokensWithin base ++ tree'.tokens = state'.tokens →
      (done.flatMap Tree.tokens ++ (statement tree').tokens).map Token.unplaced =
        before ++ tree.tokens.map Token.unplaced := by
    intro state state' tree tree' tokens all all'
    rw [← opens.tokens, all', all, tokens]
  induction accepts generalizing state' place' lexemes' with
  | @ending state _ program finished =>
    have reply := abreast.take opens (rfl : Reader.ending.kind = Reader.ending.kind)
    rw [finished, accepts'.finished_of_nil] at reply
    cases reply with
    | ended all all' end_ end_' =>
      rw [opens.endExpression_eq] at end_'
      obtain ⟨-, rfl⟩ := endStatement_finished end_
      obtain ⟨-, rfl⟩ := endStatement_finished end_'
      exact ⟨_, _, [], rfl, rfl, ended tokens all all'⟩
  | layout found layout _ ih =>
    obtain ⟨_, rfl, ⟨-, inner⟩ | ⟨solid, -⟩⟩ :=
      accepts'.of_scan (Lexeme.scan_of_layout found layout _)
    · exact ih inner abreast tokens
    · cases layout.symm.trans solid
  | @token state next place lexeme chars _ program found solid _ taken _ ih =>
    have some_ : lexeme.written ++ chars ≠ [] := fun nothing =>
      (Lexeme.scan_written found).2 (List.append_eq_nil_iff.mp nothing).1
    obtain ⟨other, found'⟩ := accepts'.exists_scan some_
    obtain rfl := Lexeme.scan_agree (fun _ => abreast.awaited) found found'
    obtain ⟨_, rfl, ⟨layout, -⟩ | ⟨-, next', taken', inner⟩⟩ := accepts'.of_scan found'
    · cases layout.symm.trans solid
    have moved : (other.toToken place').unplaced = (other.toToken place).unplaced := rfl
    have kinds : (other.toToken place').kind = (other.toToken place).kind := rfl
    have reply := abreast.take opens kinds
    rw [taken, taken'] at reply
    cases reply with
    | next led =>
      refine ih inner led ?_
      rw [tokens_of_next taken, tokens_of_next taken', List.map_append, List.map_append, tokens,
        List.append_assoc, contents_unplaced moved]
    | ended all all' end_ end_' =>
      rw [opens.endExpression_eq] at end_'
      obtain ⟨bare, placed, alike, alike'⟩ := endStatement_trails moved end_ end_'
      obtain ⟨rest, same, same'⟩ := Accepts.trails ‹_› inner placed alike alike'
      refine ⟨_, _, rest, same, ?_, ended tokens all all'⟩
      rwa [List.append_assoc] at same'

/-! ### The first token -/

variable {frames : List Frame} {operand one : Tree}

/-- A token that goes on with an operand, and starts one where a program starts, leads two readers
to stand abreast. -/
theorem State.Holds.abreast (holds : state.Holds frames operand)
    (opens : OpenStatement (absorb 0 frames operand).1 done statement) {token token' : Token}
    (continues : token.kind ∈ continuing) (same : token'.kind = token.kind) {next next' : State}
    (taken : State.initial.take token = .next next) (taken' : state.take token' = .next next') :
    next.Abreast (absorb 0 frames operand).1 next' := by
  have noElse : token'.kind ≠ .elseWord := by
    rw [same]
    intro kind
    rw [kind] at continues
    revert continues
    decide
  have outer : Reader.Abreast (absorb 0 frames operand).1 .expression [.statements []] frames :=
    .of_absorb_second 0 operand .base
  change takeStatement [] [] token = .next next at taken
  rw [holds.take noElse] at taken'
  simp only [continuing, List.mem_cons, List.not_mem_nil, or_false] at continues
  rcases continues with kind | kind | kind
  · have grips : grip token'.kind ≤ 5 ∧ strength token'.kind ≠ 0 := by
      rw [same, kind]
      decide
    rw [endOperand_eq grips.1, if_neg grips.2] at taken'
    simp only [takeStatement, startOperand, kind] at taken
    cases taken
    cases taken'
    exact .intro .operand (.first rfl (.second rfl (outer.absorb_second opens _ _)))
  · simp only [takeStatement, startOperand, kind] at taken
    simp only [endOperand, same, kind] at taken'
    cases taken
    cases taken'
    exact .intro .operand (.within .called outer)
  · simp only [takeStatement, startOperand, kind] at taken
    simp only [endOperand, same, kind] at taken'
    cases taken
    cases taken'
    exact .intro .operand (.within .indexed outer)

/-- What goes on with an operand is not written `else`. -/
theorem ne_else {lexeme : Lexeme} {rest : List Char}
    (starts : lexeme.Starts (lexeme.written ++ rest)) (continues : lexeme.kind ∈ continuing) :
    lexeme.written ≠ "else".toList := by
  have known : ∀ kind ∈ continuing, kind.isWord = false ∧ ∃ spelling,
      kind.spelling? = some spelling ∧ spelling.toList ≠ "else".toList := by
    intro kind member
    simp only [continuing, List.mem_cons, List.not_mem_nil, or_false] at member
    rcases member with rfl | rfl | rfl <;> exact ⟨rfl, _, rfl, by decide⟩
  obtain ⟨noWord, spelling, spelled, other⟩ := known _ continues
  obtain ⟨matched, written⟩ := starts.of_kind noWord
  rw [Kind.take_extent_of_spelling? spelled matched] at written
  rwa [written]

/-- **What goes on with the last statement of a program** is read as the text by itself is, until
the statement ends, and then alike. -/
theorem Accepts.continued (finished : state.take Reader.ending = .finished one)
    (holds : state.Holds frames operand)
    (opens : OpenStatement (absorb 0 frames operand).1 done statement)
    (accepts : Accepts .initial place chars lexemes program)
    (accepts' : Accepts state place' chars lexemes' program') {first : Lexeme}
    (starts : (Lexeme.solid lexemes).head? = some first) (continues : first.kind ∈ continuing) :
    Continued done statement (one.tokens.map Token.unplaced) program program' := by
  generalize start : State.initial = fresh at accepts
  induction accepts generalizing place' lexemes' with
  | ending => cases starts
  | layout found layout _ ih =>
    rw [Lexeme.solid_of_layout layout] at starts
    obtain ⟨_, rfl, ⟨-, inner⟩ | ⟨solid, -⟩⟩ :=
      accepts'.of_scan (Lexeme.scan_of_layout found layout _)
    · exact ih inner starts start
    · cases layout.symm.trans solid
  | @token _ next place lexeme chars _ _ found solid _ taken inner _ =>
    subst start
    obtain rfl : lexeme = first := by
      rw [Lexeme.solid_of_token solid] at starts
      exact Option.some.inj starts
    have found' := scan_of_finished finished found (inner.not_joinable taken)
      (ne_else (Lexeme.scan_starts found) continues)
    obtain ⟨_, rfl, ⟨layout, -⟩ | ⟨-, next', taken', inner'⟩⟩ := accepts'.of_scan found'
    · cases layout.symm.trans solid
    have moved : (lexeme.toToken place').unplaced = (lexeme.toToken place).unplaced := rfl
    have kinds : (lexeme.toToken place').kind = (lexeme.toToken place).kind := rfl
    have whole : one.tokens = state.tokens ++ Token.contents [Reader.ending] := by
      have kept := state.take_keeps Reader.ending
      rwa [finished] at kept
    refine inner.abreast opens inner' (holds.abreast opens continues kinds taken taken') ?_
    rw [tokens_of_next taken, tokens_of_next taken', List.map_append, contents_unplaced moved,
      whole]
    simp [State.initial, Token.contents, Reader.ending, Kind.isContent]

end Continued

/-! ### The second program -/

/-- **A program is read between two statements as it is by itself.** -/
theorem read_between {earlier : List Tree} {stage : Stage} (between : Between earlier stage.state)
    {chars : List Char} {lexemes : List Lexeme} {program : Tree}
    (accepts : Accepts .initial .start chars lexemes program) :
    ∃ read, stage.read chars = .ok read ∧
      read.unplaced = (Tree.node .program (earlier ++ program.children)).unplaced := by
  obtain ⟨alone, advances, finished, -⟩ := accepts.advances none
  have initial : State.initial.Placed := .initial
  obtain ⟨after, advances', resumes⟩ :=
    @Advances.resumed _ _ _ _ stage _ advances initial (.of_between between)
  have ended : ∃ read, takeEnd after.state after.last = .ok read ∧
      read.unplaced = (Tree.node .program (earlier ++ program.children)).unplaced := by
    rcases resumes with alike | ⟨start, alike⟩
    · refine takeEnd_of_unplaced alike ?_ after.last
      rw [(advances.placed initial).take_underlay, finished]
      rfl
    · rw [start] at finished
      cases finished
      have between : Between earlier after.state := ⟨.separated, Or.inr rfl, alike⟩
      simpa [Tree.children] using between.takeEnd after.last
  obtain ⟨read, ended, same⟩ := ended
  exact ⟨read, advances'.read_all.trans ended, same⟩

/-- Programs that have gone on so are continued. -/
theorem Continued.continues {base : List Frame} {done : List Tree} {statement : Tree → Tree}
    {one two program : Tree} {tree : Tree} (opens : OpenStatement base done statement)
    (continued : Continued done statement (one.tokens.map Token.unplaced) two program)
    (whole : one = .node .program (done ++ [statement tree])) :
    program.children.length + 1 = one.children.length + two.children.length ∧
      one.Continues two program := by
  obtain ⟨first, tree', rest, second, joined, tokens⟩ := continued
  have children := congrArg Tree.children joined
  have children' := congrArg Tree.children second
  rw [Tree.children_unplaced, Tree.children_unplaced] at children children'
  obtain ⟨first', rest', parts, same, others⟩ := List.map_eq_cons_iff.mp children'
  subst whole
  refine ⟨?_, done, statement tree, first', rest', statement tree', rfl, parts, ?_, ?_, ?_⟩
  · have count := congrArg List.length children
    have count' := congrArg List.length others
    simp only [Tree.children, List.length_map, List.length_append, List.length_cons] at count count'
    rw [parts]
    simp only [Tree.children, List.length_append, List.length_cons, List.length_nil]
    omega
  · rw [joined, Tree.node_unplaced, Tree.node_unplaced, List.map_append, List.map_append,
      List.map_cons, List.map_cons, others]
  · cases opens <;> rfl
  · have own : first'.tokens.map Token.unplaced = first.tokens.map Token.unplaced := by
      rw [← Tree.tokens_unplaced, same, Tree.tokens_unplaced, Tree.tokens_node]
      simp
    rw [Tree.tokens_node, List.flatMap_append, List.map_append, List.map_append,
      List.append_assoc] at tokens
    have cancelled := List.append_cancel_left tokens
    rw [List.map_append, own, cancelled]
    simp

section Second

variable {stage : Stage} {one two : Tree} {last : Token} {chars : List Char}
  {lexemes : List Lexeme}

/-- What follows a program is read as more statements of it, after a semicolon or if it does not
go on with an operand. -/
theorem read_apart (finished : stage.state.take ending = .finished one)
    (led : stage.state.LedBy last) (accepts : Accepts .initial .start chars lexemes two)
    (apart : last.kind = .semicolon ∨ ∀ first ∈ (Lexeme.solid lexemes).head?,
      first.kind ∉ continuing ∧ first.written ≠ "else".toList) :
    ∃ program, stage.read chars = .ok program ∧
      program.unplaced = (Tree.node .program (one.children ++ two.children)).unplaced := by
  have separated : stage.read chars =
      ({ stage with state := ⟨[.statements one.children], .separated⟩ } : Stage).read chars := by
    rcases apart with semicolon | apart
    · obtain ⟨done, within, separated⟩ := led.separated semicolon
      rw [separated] at finished
      cases within with
      | nil =>
        cases finished
        rw [Tree.children, ← separated]
      | cons => cases finished
    · exact read_of_finished finished accepts apart
  rw [separated]
  exact read_between ⟨.separated, Or.inr rfl, rfl⟩ accepts

/-- What goes on with an operand continues the last statement of a program that it follows, if no
semicolon has ended it. -/
theorem read_continued (finished : stage.state.take ending = .finished one)
    (led : stage.state.LedBy last) (some_ : one.children ≠ []) (open_ : last.kind ≠ .semicolon)
    (accepts : Accepts .initial .start chars lexemes two) {first : Lexeme}
    (starts : (Lexeme.solid lexemes).head? = some first) (continues : first.kind ∈ continuing)
    {program : Tree} (read : stage.read chars = .ok program) :
    program.children.length + 1 = one.children.length + two.children.length ∧
      one.Continues two program := by
  obtain ⟨lexemes', accepts'⟩ := accepts_of_readFrom read (Nat.zero_le _)
  rcases State.finished_cases finished with ⟨done, point, awaits, stands, rfl⟩ | ⟨_, _, holds⟩
  · rw [stands] at led
    rcases awaits with rfl | rfl
    · obtain ⟨outer, frames⟩ := led.opened rfl
      cases frames
      exact absurd rfl some_
    · exact absurd (led.semicolon rfl) open_
  · obtain ⟨done, statement, opens, whole⟩ := holds.finished finished
    have continued := Accepts.continued finished holds opens accepts accepts' starts continues
    exact continued.continues opens whole

end Second

end Reader

/-! ### Two programs -/

open Reader

/-- **Programs put one after another, a line for each.** If the first one ends in a semicolon, or
the second one does not start with `-`, `(`, `[` or the word `else`, they are read as one program
of all their statements. If the first one does not end in a semicolon and the second one starts
with `-`, `(` or `[`, then where they are read as one program, it has one statement less, since
the last statement of the first program goes on with the first one of the second. -/
theorem parse_juxtaposed {source second : String} {one two : Tree} (parsed : parse source = .ok one)
    (parsed' : parse second = .ok two) (some_ : one.children ≠ []) (some_' : two.children ≠ []) :
    (∃ last first, LastLexeme source last ∧ FirstLexeme second first) ∧
      ∀ last first, LastLexeme source last → FirstLexeme second first →
        (last.kind = .semicolon ∨ first.kind ∉ continuing ∧ first.written ≠ "else".toList →
          ∃ program, parse (source ++ "\n" ++ second) = .ok program ∧
            program.unplaced = (Tree.node .program (one.children ++ two.children)).unplaced) ∧
        (last.kind ≠ .semicolon → first.kind ∈ continuing →
          ∀ program, parse (source ++ "\n" ++ second) = .ok program →
            program.children.length + 1 = one.children.length + two.children.length ∧
              one.Continues two program) := by
  obtain ⟨lexemes, accepts⟩ := accepts_of_parse parsed
  obtain ⟨lexemes', accepts'⟩ := accepts_of_parse parsed'
  obtain ⟨after, advances, finished, -, led⟩ := accepts.advances none
  have joined : parse (source ++ "\n" ++ second) = (after.past ['\n']).read second.toList := by
    have seam : Seam (· == '\n') [] ('\n' :: second.toList) := ⟨'\n', _, rfl, Or.inl rfl⟩
    have whole : Advances [] .initial source.toList after := advances
    have read : Stage.initial.read (source ++ "\n" ++ second).toList =
        after.read ('\n' :: second.toList) := by
      simpa using (whole.of_seam seam).read_eq
    exact read.trans (after.read_spacing rfl _)
  obtain ⟨last, ends⟩ := exists_lastLexeme parsed some_
  obtain ⟨first, starts⟩ := exists_firstLexeme parsed' some_'
  refine ⟨⟨last, first, ends, starts⟩, ?_⟩
  rintro last first ⟨_, _, again, ends⟩ ⟨_, _, again', starts⟩
  obtain ⟨rfl, -⟩ := accepts.unique again
  obtain ⟨rfl, -⟩ := accepts'.unique again'
  obtain ⟨place, led⟩ := led last ends
  rw [joined]
  refine ⟨fun apart => ?_, fun open_ continues program read => ?_⟩
  · refine @read_apart (after.past ['\n']) _ _ _ _ _ finished led accepts' ?_
    refine apart.imp_right fun apart other member => ?_
    obtain rfl : first = other := Option.some.inj (starts.symm.trans member)
    exact apart
  · exact @read_continued (after.past ['\n']) _ _ _ _ _ finished led some_ open_ accepts' _ starts
      continues _ read

/-- After a binding to `f`, `(b)` on the next line makes a call of it, and `b` is a statement of its
own. -/
theorem parse_juxtaposed_call :
    ∃ one two other, parse "let a=f" = .ok one ∧ parse "(b)" = .ok two ∧ parse "b" = .ok other ∧
      (∃ program, parse "let a=f\n(b)" = .ok program ∧ program.children.length = 1 ∧
        one.Continues two program) ∧
      ∃ program, parse "let a=f\nb" = .ok program ∧
        program.unplaced = (Tree.node .program (one.children ++ other.children)).unplaced := by
  have last : LastLexeme "let a=f" ⟨.identifier, ['f']⟩ :=
    ⟨_, _, @Accepts.token _ _ _ ⟨.letWord, ['l', 'e', 't']⟩ _ _ _ rfl rfl rfl rfl <|
      @Accepts.layout _ _ ⟨.blanks, [' ']⟩ _ _ _ rfl rfl <|
      @Accepts.token _ _ _ ⟨.identifier, ['a']⟩ _ _ _ rfl rfl rfl rfl <|
      @Accepts.token _ _ _ ⟨.assign, ['=']⟩ _ _ _ rfl rfl rfl rfl <|
      @Accepts.token _ _ _ ⟨.identifier, ['f']⟩ _ _ _ rfl rfl rfl rfl <| .ending rfl, rfl⟩
  have bracket : FirstLexeme "(b)" ⟨.openParen, ['(']⟩ :=
    ⟨_, _, @Accepts.token _ _ _ ⟨.openParen, ['(']⟩ _ _ _ rfl rfl rfl rfl <|
      @Accepts.token _ _ _ ⟨.identifier, ['b']⟩ _ _ _ rfl rfl rfl rfl <|
      @Accepts.token _ _ _ ⟨.closeParen, [')']⟩ _ _ _ rfl rfl rfl rfl <| .ending rfl, rfl⟩
  have name : FirstLexeme "b" ⟨.identifier, ['b']⟩ :=
    ⟨_, _, @Accepts.token _ _ _ ⟨.identifier, ['b']⟩ _ _ _ rfl rfl rfl rfl <| .ending rfl, rfl⟩
  refine ⟨_, _, _, rfl, rfl, rfl, ⟨_, rfl, rfl, ?_⟩, ?_⟩
  · have both := @parse_juxtaposed "let a=f" "(b)" _ _ rfl rfl (List.cons_ne_nil _ _)
      (List.cons_ne_nil _ _)
    exact ((both.2 _ _ last bracket).2 (by decide) (by decide) _ rfl).2
  · have both := @parse_juxtaposed "let a=f" "b" _ _ rfl rfl (List.cons_ne_nil _ _)
      (List.cons_ne_nil _ _)
    exact (both.2 _ _ last name).1 (Or.inr (by decide))

end Scriptlet
