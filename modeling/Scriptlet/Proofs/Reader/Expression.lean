/-
**The text of an expression reads alike wherever an operand is awaited.**

By itself, the text of an expression is a program of one statement. The same characters may stand
after `let name =`, as an argument of a call, or wherever else an operand is awaited. There other
constructs are open, more may be looked for, and other characters follow.

* `IsExpression`: a text is an expression, with its tree.
* `EndsInComment`: a comment is still open where a text ends.
* `Reader.Followed`: what may follow the lexemes of a text, or is swallowed by its last comment.
* `Reader.Leads`: a text leads from one state to another, on top of whatever constructs that are no
  operators, and whatever follows.

Main statement: `Reader.Accepts.reaches`. The text of an expression leads from an operand awaited to
the whole expression (`IsExpression.reaches`, or `IsExpression.reaches_swallowing` where a comment
swallows what follows). The induction is on the lexemes of the text (`Reader.Accepts.within`); as
long as the expression has not ended, a token leads to the same state there
(`Reader.State.Inner.of_next`), and once it has, the program has a second statement.
-/
import Scriptlet.Proofs.Reader.Above
import Scriptlet.Proofs.Reader.Juxtaposed
import Scriptlet.Proofs.Reader.Reaches

namespace Scriptlet

open Reader

/-- A text is an expression by itself: a program of one statement, without a semicolon. -/
def IsExpression (source : String) (tree : Tree) : Prop :=
  parse source = .ok (.node .program [.node .expressionStatement [tree]]) ∧
    ∀ last, LastLexeme source last → last.kind ≠ .semicolon

/-- A comment is still open where the text of a program ends. -/
def EndsInComment (source : String) : Prop :=
  ∃ lexemes last program, Accepts .initial .start source.toList (lexemes ++ [last]) program ∧
    last.kind = .comment

namespace Reader

/-- No semicolon has ended a statement after the lexemes. -/
def Unfinished (lexemes : List Lexeme) : Prop :=
  ∀ last ∈ (Lexeme.solid lexemes).getLast?, last.kind ≠ .semicolon

/-- What comes after the lexemes: the rest of a text, which stands apart; or a line that a comment
swallows, which is open, and nothing else. -/
inductive Followed (lexemes : List Lexeme) : (swallowed rest : List Char) → Prop
  | apart {rest : List Char} : (∀ last ∈ lexemes.getLast?, last.kind ≠ .comment) → Ends rest →
      Followed lexemes [] rest
  | swallowing {line : List Char} : (∃ last ∈ lexemes.getLast?, last.kind = .comment) →
      '\n' ∉ line → Followed lexemes line []

/-- The characters of the lexemes lead from one state to another, on top of whatever constructs that
are no operators, and whatever comes after them. -/
def Leads (state : State) (chars : List Char) (lexemes : List Lexeme) (after : State) : Prop :=
  ∀ ⦃lower : List Frame⦄ ⦃swallowed rest : List Char⦄, Open 0 lower →
    Followed lexemes swallowed rest →
      Reaches rest (state.above lower) (chars ++ swallowed) (after.above lower)

/-- The last of more lexemes, if any. -/
theorem mem_getLast?_cons {α : Type} {first last : α} {rest : List α}
    (ends : last ∈ rest.getLast?) : last ∈ (first :: rest).getLast? := by
  cases rest with
  | nil => cases ends
  | cons => rwa [List.getLast?_cons_cons]

theorem Unfinished.tail {lexeme : Lexeme} {lexemes : List Lexeme}
    (unfinished : Unfinished (lexeme :: lexemes)) : Unfinished lexemes := by
  intro last ends
  refine unfinished last ?_
  cases layout : lexeme.kind.isLayout with
  | true => rwa [Lexeme.solid_of_layout layout]
  | false =>
    rw [Lexeme.solid_of_token layout]
    exact mem_getLast?_cons ends

theorem ends_nil : Ends [] :=
  fun c member => by cases member

/-- Nothing may come after lexemes. -/
theorem Followed.nothing (lexemes : List Lexeme) : Followed lexemes [] [] := by
  by_cases comment : ∃ last ∈ lexemes.getLast?, last.kind = .comment
  · exact .swallowing comment (by simp)
  · exact .apart (by simpa using comment) ends_nil

/-- What comes after lexemes comes after all but the first of them, unless this is a comment and the
only one. -/
theorem Followed.tail {lexeme : Lexeme} {lexemes : List Lexeme} {swallowed rest : List Char}
    (followed : Followed (lexeme :: lexemes) swallowed rest)
    (further : lexemes ≠ [] ∨ lexeme.kind ≠ .comment) : Followed lexemes swallowed rest := by
  cases lexemes with
  | nil =>
    have other := further.resolve_left fun some_ => some_ rfl
    cases followed with
    | apart _ ends => exact .apart (by simp) ends
    | swallowing comment =>
      obtain ⟨last, same, comment⟩ := comment
      obtain rfl : lexeme = last := Option.some.inj same
      exact absurd comment other
  | cons second others =>
    cases followed with
    | apart other ends => exact .apart (by rwa [List.getLast?_cons_cons] at other) ends
    | swallowing comment sameLine =>
      exact .swallowing (by rwa [List.getLast?_cons_cons] at comment) sameLine

/-! ### After the end of a statement -/

/-- A program that has earlier statements keeps them. -/
theorem Advances.underlaid {earlier : List Tree} {rest chars : List Char} {stage after : Stage}
    (advances : Advances rest stage chars after) {bare : State} (placed : bare.Placed)
    (alike : stage.state.unplaced = (bare.underlay earlier).unplaced) :
    ∃ final : State, final.Placed ∧ after.state.unplaced = (final.underlay earlier).unplaced := by
  induction advances generalizing bare with
  | done => exact ⟨bare, placed, alike⟩
  | spacing _ _ ih => exact ih placed alike
  | comment _ _ _ ih => exact ih placed alike
  | @token stage _ lexeme _ _ _ _ taken _ ih =>
    obtain ⟨next, replied, alike⟩ := next_of_underlay placed alike rfl (takeToken_eq_ok taken).2
    have placedNext := placed.take (lexeme.toToken stage.place)
    rw [replied] at placedNext
    exact ih placedNext alike

/-- After earlier statements, a program that ends after another token than a semicolon has one
more. -/
theorem State.LedBy.children_ne_nil {earlier : List Tree} (some_ : earlier ≠ [])
    {state bare : State} (alike : state.unplaced = (bare.underlay earlier).unplaced)
    {token : Token} (led : state.LedBy token) (other : token.kind ≠ .semicolon) {alone : Tree}
    (finished : bare.take ending = .finished alone) : alone.children ≠ [] := by
  rcases bare.finished_cases finished with ⟨done, point, awaits, rfl, rfl⟩ | ⟨_, _, holds⟩
  · rintro (rfl : done = [])
    obtain ⟨frames, here⟩ := state
    obtain ⟨frames', points⟩ := State.mk.inj alike
    rcases awaits with rfl | rfl
    · obtain rfl : here = .opened := by cases here <;> first | rfl | cases points
      obtain ⟨outer, opened⟩ := led.opened rfl
      obtain rfl : frames = .statements [] :: outer := opened
      simp [State.underlay, Reader.underlay, behind, some_] at frames'
    · obtain rfl : here = .separated := by cases here <;> first | rfl | cases points
      exact other (led.semicolon rfl)
  · obtain ⟨_, _, _, rfl⟩ := holds.finished finished
    simp [Tree.children]

/-- **Where a statement ends before the last token, another one follows**, unless the last token is
the semicolon. -/
theorem Accepts.second_statement {done : List Tree} {statement : Tree} {state : State}
    {place place' : Position} {chars : List Char} {lexeme : Lexeme} {lexemes : List Lexeme}
    {program : Tree} (accepts : Accepts state place chars lexemes program)
    (ended : endStatement done [] statement (lexeme.toToken place') = .next state)
    (solid : lexeme.kind.isLayout = false) (unfinished : Unfinished (lexeme :: lexemes)) :
    done.length + 2 ≤ program.children.length := by
  obtain ⟨bare, placed, alike, -⟩ := endStatement_trails rfl ended ended
  obtain ⟨after, advances, finished, same, led⟩ := accepts.advances none
  obtain ⟨final, placed, alike⟩ := advances.underlaid placed alike
  obtain ⟨alone, replied, added⟩ := finished_of_underlay placed alike finished
  have last : ∃ token : Token, token.kind ≠ .semicolon ∧ after.state.LedBy token := by
    have kept := unfinished
    rw [Unfinished, Lexeme.solid_of_token solid] at kept
    cases others : Lexeme.solid lexemes with
    | nil =>
      rw [others] at kept
      have reply := @endStatement_ledBy (lexeme.toToken place') done [] statement
      rw [ended, ← same others] at reply
      exact ⟨_, kept lexeme rfl, reply⟩
    | cons second more =>
      obtain ⟨final, ends⟩ := Option.ne_none_iff_exists'.mp
        (mt List.getLast?_eq_none_iff.mp (by simp : second :: more ≠ []))
      rw [others] at kept led
      obtain ⟨place, led⟩ := led final ends
      exact ⟨_, kept final (mem_getLast?_cons ends), led⟩
  obtain ⟨token, other, led⟩ := last
  have more := List.length_pos_iff.mpr (led.children_ne_nil (by simp) alike other replied)
  have counted : program.children.length = (done ++ [statement] ++ alone.children).length := by
    have same := congrArg (fun tree => tree.children.length) added
    simp only [Tree.children_unplaced, List.length_map] at same
    exact same
  simp only [List.length_append, List.length_singleton] at counted
  omega

/-! ### In the midst of the expression of a statement -/

section Onward

variable {looksFor : Kind → Bool} {lexeme : Lexeme} {chars : List Char}

/-- A token goes as far as it did where the same text goes on. -/
theorem scan_token_append (solid : lexeme.kind.isLayout = false) (some_ : chars ≠ [])
    (found : Lexeme.scan looksFor (lexeme.written ++ chars) = some lexeme) (more : List Char) :
    Lexeme.scan looksFor (lexeme.written ++ (chars ++ more)) = some lexeme := by
  obtain ⟨c, chars, rfl⟩ := List.exists_cons_of_ne_nil some_
  exact Lexeme.scan_of_seam found solid ⟨c, chars ++ more, rfl, Or.inr ⟨chars, rfl⟩⟩

/-- So does a comment. -/
theorem scan_comment_append (comment : lexeme.kind = .comment) (some_ : chars ≠ [])
    (found : Lexeme.scan looksFor (lexeme.written ++ chars) = some lexeme) (more : List Char) :
    Lexeme.scan looksFor (lexeme.written ++ (chars ++ more)) = some lexeme := by
  obtain ⟨c, chars, rfl⟩ := List.exists_cons_of_ne_nil some_
  exact Lexeme.scan_comment_of_seam found comment ⟨c, chars ++ more, rfl, Or.inr ⟨chars, rfl⟩⟩

end Onward

section Leading

variable {state middle after onTop : State} {place : Position} {lexeme : Lexeme}
  {lexemes : List Lexeme} {chars : List Char} {program : Tree}

/-- Lexemes make up characters, and no lexemes none. -/
theorem Accepts.eq_nil_iff (accepts : Accepts state place chars lexemes program) :
    chars = [] ↔ lexemes = [] := by
  cases accepts with
  | ending => simp
  | layout found | token found => simp [(Lexeme.scan_written found).2]

theorem Leads.refl (state : State) : Leads state [] [] state := by
  intro lower swallowed rest _ followed
  cases followed with
  | apart => exact .refl
  | swallowing comment => simp at comment

/-- A token that is taken on top of whatever constructs leads on. -/
theorem Leads.token (accepts : Accepts onTop place chars lexemes program) {token : Token}
    (scanned : ∀ lower, Open 0 lower → Lexeme.scan (state.above lower).awaited.contains
      (lexeme.written ++ chars) = some lexeme)
    (solid : lexeme.kind.isLayout = false)
    (same : ∀ place, (lexeme.toToken place).unplaced = token.unplaced) (inRange : token.InRange)
    (taken : ∀ lower, Open 0 lower → (state.above lower).take token = .next (middle.above lower))
    (onward : Leads middle chars lexemes after) :
    Leads state (lexeme.written ++ chars) (lexeme :: lexemes) after := by
  intro lower swallowed rest open_ followed
  have other : lexeme.kind ≠ .comment := by
    intro comment
    rw [comment] at solid
    cases solid
  have found : Lexeme.scan (state.above lower).awaited.contains
      (lexeme.written ++ (chars ++ (swallowed ++ rest))) = some lexeme := by
    by_cases none : chars = []
    · obtain rfl := accepts.eq_nil_iff.mp none
      subst none
      cases followed with
      | apart _ ends =>
        have here := scanned lower open_
        rw [List.append_nil] at here
        exact Lexeme.scan_apart here solid ends.apart
      | swallowing comment =>
        obtain ⟨last, final, comment⟩ := comment
        obtain rfl : lexeme = last := Option.some.inj final
        exact absurd comment other
    · exact scan_token_append solid none (scanned lower open_) _
  rw [List.append_assoc]
  exact .of_lexeme (by rwa [List.append_assoc]) solid same inRange (taken lower open_)
    (onward open_ (followed.tail (Or.inr other)))

/-- **The layout between the tokens of an accepted text** is passed over wherever the text stands.
-/
theorem Leads.layout (accepts : Accepts onTop place chars lexemes program)
    (found : Lexeme.scan onTop.awaited.contains (lexeme.written ++ chars) = some lexeme)
    (isLayout : lexeme.kind.isLayout = true) (onward : Leads state chars lexemes after) :
    Leads state (lexeme.written ++ chars) (lexeme :: lexemes) after := by
  intro lower swallowed rest open_ followed
  rw [List.append_assoc]
  by_cases further : lexemes ≠ [] ∨ lexeme.kind ≠ .comment
  · refine .layout isLayout (fun comment looksFor => ?_) (Lexeme.isSpacing_of_scan found)
      (onward open_ (followed.tail further))
    have some_ : chars ≠ [] :=
      mt accepts.eq_nil_iff.mp (further.resolve_right fun other => other comment)
    rw [List.append_assoc]
    exact scan_comment_append comment some_ (Lexeme.scan_of_layout found isLayout looksFor) _
  · -- the comment is open and swallows what follows
    obtain ⟨rfl, comment⟩ : lexemes = [] ∧ lexeme.kind = .comment := by simpa using further
    obtain rfl := accepts.eq_nil_iff.mpr rfl
    cases followed with
    | apart other => exact absurd comment (other lexeme rfl)
    | swallowing _ sameLine =>
      have swallows := fun looksFor =>
        Lexeme.scan_comment_swallowing found comment looksFor sameLine
      have passed := @Reaches.layout _ _ _ _ ⟨.comment, lexeme.written ++ swallowed⟩ rfl
        (fun _ looksFor => by simpa using swallows looksFor) (fun blanks => by cases blanks)
        (onward open_ (.nothing []))
      simpa using passed

end Leading

/-- **In the midst of the expression of a statement**, the rest of an accepted text is read alike on
top of whatever constructs, up to the whole expression; or the program has another statement. -/
theorem Accepts.within {lower : List Frame} {done : List Tree} {statement : Tree → Tree}
    (opens : OpenStatement lower done statement) {state : State} (inner : state.Inner)
    {place : Position} {chars : List Char} {lexemes : List Lexeme} {program : Tree}
    (accepts : Accepts (state.above lower) place chars lexemes program)
    (unfinished : Unfinished lexemes) :
    (∃ tree after, program = .node .program (done ++ [statement tree]) ∧ State.Whole after tree ∧
        Leads state chars lexemes after) ∨
      done.length + 2 ≤ program.children.length := by
  generalize onTop : state.above lower = whole at accepts
  induction accepts generalizing state with
  | ending finished =>
    subst onTop
    obtain ⟨tree, known, ended⟩ := inner.of_finished opens finished
    exact Or.inl ⟨tree, state, ended, known, .refl state⟩
  | layout found isLayout accepts ih =>
    refine (ih inner unfinished.tail onTop).imp_left ?_
    rintro ⟨tree, after, ended, known, leads⟩
    exact ⟨tree, after, ended, known, .layout accepts found isLayout leads⟩
  | token found solid inRange taken accepts ih =>
    subst onTop
    rcases inner.of_next opens taken with ⟨after, innerAfter, rfl, replied⟩ | ⟨tree, ended⟩
    · refine (ih innerAfter unfinished.tail rfl).imp_left ?_
      rintro ⟨tree, final, ended, known, leads⟩
      exact ⟨tree, final, ended, known, .token accepts (fun other _ => inner.scan opens other found)
        solid (fun _ => rfl) inRange replied leads⟩
    · rw [opens.endExpression_eq] at ended
      exact Or.inr (accepts.second_statement ended solid unfinished)

/-! ### From the start of the expression -/

section Start

variable {place : Position} {chars : List Char} {lexemes : List Lexeme} {program tree : Tree}

/-- A program whose statement is no expression is none of one expression. -/
theorem Accepts.ne_expressing {lower : List Frame} {statement : Tree → Tree}
    (opens : OpenStatement lower [] statement)
    (other : ∀ value, statement value ≠ .node .expressionStatement [tree])
    (accepts : Accepts ⟨lower, .operand⟩ place chars lexemes program)
    (unfinished : Unfinished lexemes) :
    program ≠ .node .program [.node .expressionStatement [tree]] := by
  have onTop : Accepts ((⟨[], .operand⟩ : State).above lower) place chars lexemes program := accepts
  rintro rfl
  rcases onTop.within opens .start unfinished with ⟨value, _, same, -⟩ | more
  · obtain ⟨-, same⟩ := Tree.node.inj same
    exact other value (List.cons.inj same).1.symm
  · exact absurd more (by simp [Tree.children])

/-- Such is a program that starts with `let`. -/
theorem Accepts.ne_expressing_of_let {state : State}
    (declares : state = ⟨[.statements []], .letWord⟩ ∨
      ∃ name, state = ⟨[.statements []], .letName name⟩)
    (accepts : Accepts state place chars lexemes program) (unfinished : Unfinished lexemes) :
    program ≠ .node .program [.node .expressionStatement [tree]] := by
  induction accepts with
  | ending finished => rcases declares with rfl | ⟨_, rfl⟩ <;> cases finished
  | layout _ _ _ ih => exact ih declares unfinished.tail
  | token _ _ _ taken accepts ih =>
    rcases declares with rfl | ⟨_, rfl⟩
    · simp only [State.take] at taken
      split at taken <;> cases taken
      exact ih (Or.inr ⟨_, rfl⟩) unfinished.tail
    · simp only [State.take] at taken
      split at taken <;> cases taken
      exact accepts.ne_expressing .binding (fun _ same => by cases same) unfinished.tail

/-- What is found at the start of a program is found where an operand is awaited, if it may start
one and makes no mark with what follows. -/
theorem scan_operandStart {lexeme : Lexeme}
    (found : Lexeme.scan State.initial.awaited.contains (lexeme.written ++ chars) = some lexeme)
    (separate : ¬ lexeme.Joinable chars) (starts : lexeme.kind ∈ operandStart) :
    Lexeme.scan operandStart.contains (lexeme.written ++ chars) = some lexeme := by
  rcases Lexeme.exists_of_scan found with
    joins | ⟨kind, tried, looked, some_, whole, clear, settled⟩
  · exact absurd joins separate
  have known : ∀ kind ∈ Kind.trialOrder, State.initial.awaited.contains kind = true →
      operandStart.contains kind = true := by decide
  have looked : (kind.isLayout || operandStart.contains kind) = true := by
    rw [Bool.or_eq_true] at looked ⊢
    exact looked.imp_right (known kind tried)
  have words : ∀ word ∈ Kind.words, operandStart.contains word =
      State.initial.awaited.contains word ∨
        State.initial.awaited.contains word = true ∧ word ∉ operandStart := by decide
  have same : Lexeme.settle operandStart.contains kind lexeme.written = lexeme.kind := by
    rw [settled]
    unfold Lexeme.settle at settled ⊢
    split
    next name =>
      rw [if_pos name] at settled
      split
      next word spelled =>
        rw [spelled] at settled
        rcases words word (List.mem_of_find?_eq_some spelled) with alike | ⟨sought, apart⟩
        · rw [alike]
        · simp only [sought, if_true] at settled
          exact absurd (settled ▸ starts) apart
      · rfl
    · rfl
  rw [Lexeme.scan_of_whole tried looked some_ whole clear, same]

/-- The first token of an expression starts an operand. -/
theorem State.starts_of_expression {token : Token} {next : State}
    (taken : State.initial.take token = .next next)
    (accepts : Accepts next place chars lexemes
      (.node .program [.node .expressionStatement [tree]]))
    (unfinished : Unfinished lexemes) :
    ∃ inner : State, startOperand [] token = some inner ∧ next = inner.above [.statements []] := by
  change takeStatement [] [] token = .next next at taken
  by_cases other : token.kind ∈ [.letWord, .returnWord, .closeBrace, .ending]
  · simp only [List.mem_cons, List.not_mem_nil, or_false] at other
    rcases other with kind | kind | kind | kind <;> simp only [takeStatement, kind] at taken
    · cases taken
      exact absurd rfl (accepts.ne_expressing_of_let (Or.inl rfl) unfinished)
    · cases taken
      exact absurd rfl (accepts.ne_expressing .returning (fun _ same => by cases same) unfinished)
    · cases taken
    · cases taken
  · rw [takeStatement_eq other] at taken
    have onTop := startOperand_above [] [.statements []] token
    rw [List.nil_append] at onTop
    rw [onTop] at taken
    cases started : startOperand [] token with
    | none => simp [started] at taken
    | some inner =>
      simp only [started, Option.map_some] at taken
      exact ⟨inner, rfl, (Reply.next.inj taken).symm⟩

/-- **The text of an expression is read alike wherever an operand is awaited.** -/
theorem Accepts.reaches (accepts : Accepts .initial place chars lexemes program)
    (expression : program = .node .program [.node .expressionStatement [tree]])
    (unfinished : Unfinished lexemes) :
    ∃ after, State.Whole after tree ∧ Leads ⟨[], .operand⟩ chars lexemes after := by
  generalize start : State.initial = state at accepts
  induction accepts with
  | ending finished =>
    subst start expression
    cases finished
  | layout found isLayout accepts ih =>
    obtain ⟨after, known, leads⟩ := ih expression unfinished.tail start
    exact ⟨after, known, .layout accepts found isLayout leads⟩
  | @token _ next place lexeme chars _ _ found solid inRange taken accepts ih =>
    subst start expression
    obtain ⟨inner, started, rfl⟩ := State.starts_of_expression taken accepts unfinished.tail
    obtain ⟨innerState, onTop⟩ := startOperand_onTop started
    rcases accepts.within .expressing innerState unfinished.tail with
      ⟨value, after, same, known, leads⟩ | more
    · obtain ⟨-, same⟩ := Tree.node.inj same
      obtain ⟨-, same⟩ := Tree.node.inj (List.cons.inj same).1
      obtain rfl := (List.cons.inj same).1
      have sought := scan_operandStart found (accepts.not_joinable taken)
        (startOperand_mem (onTop []))
      refine ⟨after, known, .token accepts (fun lower _ => ?_) solid (fun _ => rfl) inRange
        (fun lower _ => ?_) leads⟩
      · exact State.Inner.start.scan (@OpenStatement.expressing []) lower sought
      · show takeOperand ([] ++ lower) _ = _
        unfold takeOperand
        rw [List.nil_append, onTop lower]
    · exact absurd more (by simp [Tree.children])

end Start

end Reader

namespace IsExpression

variable {source : String} {tree : Tree} (isExpression : IsExpression source tree)

include isExpression

/-- The expression has the shape of one. -/
theorem shaped : tree.Shaped Token.InRange .expression := by
  cases parse_shaped isExpression.1 with
  | program each =>
    cases List.forall_mem_singleton.mp each with
    | expressing shaped => exact shaped

/-- **The text of an expression leads from an operand awaited to the whole expression**, on top of
whatever constructs that are no operators, and whatever follows that stands apart, if no comment is
open where it ends. -/
theorem reaches (closed : ¬ EndsInComment source) {rest : List Char} (ends : Ends rest) :
    ∃ after, State.Whole after tree ∧
      ∀ lower, Open 0 lower → Reaches rest ⟨lower, .operand⟩ source.toList (after.above lower) := by
  obtain ⟨parsed, noSemicolon⟩ := isExpression
  obtain ⟨lexemes, accepts⟩ := accepts_of_parse parsed
  have unfinished : Unfinished lexemes :=
    fun last final => noSemicolon last ⟨lexemes, _, accepts, final⟩
  have noComment : ∀ last ∈ lexemes.getLast?, last.kind ≠ .comment := by
    intro last final comment
    have parts := List.dropLast_append_getLast? last final
    exact closed ⟨lexemes.dropLast, last, _, by rwa [parts], comment⟩
  obtain ⟨after, whole, leads⟩ := accepts.reaches rfl unfinished
  refine ⟨after, whole, fun lower open_ => ?_⟩
  have reached := leads open_ (.apart noComment ends)
  rwa [List.append_nil] at reached

/-- A comment that is open where it ends swallows what follows on the same line. -/
theorem reaches_swallowing (opened : EndsInComment source) {line : List Char}
    (sameLine : '\n' ∉ line) :
    ∃ after, State.Whole after tree ∧ ∀ lower, Open 0 lower →
      Reaches [] ⟨lower, .operand⟩ (source.toList ++ line) (after.above lower) := by
  obtain ⟨parsed, noSemicolon⟩ := isExpression
  obtain ⟨lexemes, last, program, accepts, comment⟩ := opened
  obtain ⟨others, accepts'⟩ := accepts_of_parse parsed
  have same := (accepts'.unique accepts).2
  have unfinished : Unfinished (lexemes ++ [last]) :=
    fun last final => noSemicolon last ⟨_, _, accepts, final⟩
  obtain ⟨after, whole, leads⟩ := accepts.reaches same unfinished
  exact ⟨after, whole, fun lower open_ =>
    leads open_ (.swallowing ⟨last, by simp, comment⟩ sameLine)⟩

end IsExpression

end Scriptlet
