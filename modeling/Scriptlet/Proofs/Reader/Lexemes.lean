/-
**The lexemes of an accepted text.**

* `Lexeme.solid`: the lexemes that are no layout.
* `Reader.FirstLexeme`, `Reader.LastLexeme`: the first and the last of them in the text of a
  program.

Main statements: the lexemes of an accepted text are the only ones (`Accepts.unique`), none of
them makes one mark with what follows (`Accepts.not_joinable`), and what is accepted is read, up
to a state that the last lexeme has led to (`Accepts.advances`).
-/
import Scriptlet.Proofs.Reader.Advances
import Scriptlet.Proofs.Reader.Leading
import Scriptlet.Proofs.Token.Overlap

namespace Scriptlet

/-- The lexemes that are no layout. -/
def Lexeme.solid (lexemes : List Lexeme) : List Lexeme :=
  lexemes.filter fun lexeme => !lexeme.kind.isLayout

namespace Lexeme

variable {lexeme : Lexeme} {rest : List Lexeme}

theorem solid_of_layout (layout : lexeme.kind.isLayout = true) :
    solid (lexeme :: rest) = solid rest := by
  simp [solid, layout]

theorem solid_of_token (token : lexeme.kind.isLayout = false) :
    solid (lexeme :: rest) = lexeme :: solid rest := by
  simp [solid, token]

end Lexeme

namespace Reader

/-- Neither `=` nor `==` is looked for where an operand is awaited. -/
theorem not_mem_operandAwaited (frames : List Frame) :
    ∀ kind ∈ Kind.startedBy '=', kind ∉ operandAwaited frames := by
  have known : ∀ kind ∈ Kind.startedBy '=', kind ∉ operandStart ∧ kind ≠ .closeParen ∧
      kind ≠ .closeBracket ∧ kind ≠ .closeBrace := by decide
  intro kind started
  obtain ⟨noStart, noParen, noBracket, noBrace⟩ := known kind started
  unfold operandAwaited
  split <;> simp [noStart, noParen, noBracket, noBrace]

namespace Accepts

variable {state : State} {place : Position} {chars : List Char} {lexemes : List Lexeme}
  {program : Tree}

/-- No text is accepted that has an equals sign where an operand is awaited. -/
theorem ne_equals (accepts : Accepts state place chars lexemes program)
    (awaits : state.point = .operand) (more : List Char) : chars ≠ '=' :: more := by
  intro starts
  -- whatever starts with an equals sign is neither layout nor looked for
  have missed : ∀ {lexeme : Lexeme} {rest : List Char},
      Lexeme.scan state.awaited.contains (lexeme.written ++ rest) = some lexeme →
      lexeme.written ++ rest ≠ '=' :: more := by
    intro lexeme rest found starts
    obtain ⟨kind, tried, trial⟩ := List.exists_of_findSome?_eq_some (Lexeme.scan_eq _ _ ▸ found)
    obtain ⟨looked, some_, whole, -⟩ := Lexeme.trial_eq_some trial
    have matched : kind.extent ('=' :: more) ≠ 0 := by
      rw [← starts]
      exact Lexeme.extent_ne_zero some_ whole
    have started := Kind.mem_startedBy tried matched
    have solid : ∀ kind ∈ Kind.startedBy '=', kind.isLayout = false := by decide
    rw [solid kind started, Bool.false_or, List.contains_iff_mem, State.awaited, awaits] at looked
    exact not_mem_operandAwaited state.frames kind started looked
  cases accepts with
  | ending => cases starts
  | layout found => exact missed found starts
  | token found => exact missed found starts

/-- A lexeme that is taken makes no mark with what follows. -/
theorem not_joinable {lexeme : Lexeme} {after : State} {place' : Position}
    (taken : state.take (lexeme.toToken place) = .next after)
    (accepts : Accepts after place' chars lexemes program) : ¬ lexeme.Joinable chars := by
  rintro ⟨joins, more, starts⟩
  have reply := state.take_ledBy (lexeme.toToken place)
  rw [taken] at reply
  exact accepts.ne_equals (reply.operand joins) more starts

/-- What is accepted from a lexeme on goes on as the lexeme is taken. -/
theorem of_scan {lexeme : Lexeme}
    (found : Lexeme.scan state.awaited.contains (lexeme.written ++ chars) = some lexeme)
    (accepts : Accepts state place (lexeme.written ++ chars) lexemes program) :
    ∃ others, lexemes = lexeme :: others ∧
      (lexeme.kind.isLayout = true ∧
          Accepts state (place.afterAll lexeme.written) chars others program ∨
        lexeme.kind.isLayout = false ∧ ∃ after,
          state.take (lexeme.toToken place) = .next after ∧
            Accepts after (place.afterAll lexeme.written) chars others program) := by
  have some_ := (Lexeme.scan_written found).2
  generalize text : lexeme.written ++ chars = whole at accepts found
  cases accepts with
  | ending => exact absurd (List.append_eq_nil_iff.mp text).1 some_
  | @layout _ _ other rest _ _ again layout inner =>
    cases again.symm.trans found
    cases List.append_cancel_left text
    exact ⟨_, rfl, Or.inl ⟨layout, inner⟩⟩
  | @token _ after _ other rest _ _ again solid _ taken inner =>
    cases again.symm.trans found
    cases List.append_cancel_left text
    exact ⟨_, rfl, Or.inr ⟨solid, after, taken, inner⟩⟩

/-- The end of a text finishes the program. -/
theorem finished_of_nil (accepts : Accepts state place [] lexemes program) :
    state.take Reader.ending = .finished program := by
  generalize nothing : ([] : List Char) = chars at accepts
  cases accepts with
  | ending finished => exact finished
  | layout found | token found =>
    exact absurd (List.append_eq_nil_iff.mp nothing.symm).1 (Lexeme.scan_written found).2

/-- Some lexeme is found where a text is accepted. -/
theorem exists_scan (accepts : Accepts state place chars lexemes program)
    (some_ : chars ≠ []) :
    ∃ lexeme, Lexeme.scan state.awaited.contains chars = some lexeme := by
  cases accepts with
  | ending => exact absurd rfl some_
  | layout found | token found => exact ⟨_, found⟩

/-- **The lexemes of an accepted text are the only ones.** -/
theorem unique {others : List Lexeme} {other : Tree}
    (accepts : Accepts state place chars lexemes program)
    (accepts' : Accepts state place chars others other) : others = lexemes ∧ other = program := by
  induction accepts generalizing others other with
  | ending finished =>
    generalize nothing : ([] : List Char) = rest at accepts'
    cases accepts' with
    | ending finished' =>
      cases finished.symm.trans finished'
      exact ⟨rfl, rfl⟩
    | layout found =>
      exact absurd (List.append_eq_nil_iff.mp nothing.symm).1 (Lexeme.scan_written found).2
    | token found =>
      exact absurd (List.append_eq_nil_iff.mp nothing.symm).1 (Lexeme.scan_written found).2
  | layout found layout _ ih =>
    obtain ⟨more, rfl, ⟨-, inner⟩ | ⟨solid, -⟩⟩ := accepts'.of_scan found
    · obtain ⟨rfl, rfl⟩ := ih inner
      exact ⟨rfl, rfl⟩
    · cases layout.symm.trans solid
  | token found solid _ taken _ ih =>
    obtain ⟨more, rfl, ⟨layout, -⟩ | ⟨-, after, taken', inner⟩⟩ := accepts'.of_scan found
    · cases layout.symm.trans solid
    · cases taken.symm.trans taken'
      obtain ⟨rfl, rfl⟩ := ih inner
      exact ⟨rfl, rfl⟩

/-- **What is accepted is read**, up to a state that the last lexeme has led to. -/
theorem advances (accepts : Accepts state place chars lexemes program) (last : Option Token) :
    ∃ after : Stage, Advances [] ⟨state, last, place⟩ chars after ∧
      after.state.take Reader.ending = .finished program ∧
      (Lexeme.solid lexemes = [] → after.state = state) ∧
      ∀ lexeme ∈ (Lexeme.solid lexemes).getLast?,
        ∃ place, after.state.LedBy (lexeme.toToken place) := by
  induction accepts generalizing last with
  | @ending state place program finished =>
    exact ⟨⟨state, last, place⟩, .done _, finished, fun _ => rfl, fun lexeme member => by
      simp [Lexeme.solid] at member⟩
  | @layout state place lexeme chars rest program found layout _ ih =>
    obtain ⟨after, advances, finished, same, led⟩ := ih last
    rw [Lexeme.solid_of_layout layout]
    refine ⟨after, ?_, finished, same, led⟩
    by_cases comment : lexeme.kind = .comment
    · exact .comment (by simpa using found) comment advances
    · have blanks : lexeme.kind = .blanks := by simpa [Kind.isLayout, comment] using layout
      exact .of_spacing (Lexeme.isSpacing_of_scan found blanks) advances
  | @token state next place lexeme chars rest program found solid inRange taken _ ih =>
    obtain ⟨after, advances, finished, same, led⟩ := ih (some (lexeme.toToken place))
    have taken' := takeToken_of_inRange inRange taken
    rw [Lexeme.solid_of_token solid]
    refine ⟨after, .token (by simpa using found) solid taken' advances, finished, by simp, ?_⟩
    intro other member
    cases others : Lexeme.solid rest with
    | nil =>
      rw [others] at member
      obtain rfl : lexeme = other := by simpa using member
      have reply := state.take_ledBy (lexeme.toToken place)
      rw [taken, ← same others] at reply
      exact ⟨place, reply⟩
    | cons second more =>
      rw [others, List.getLast?_cons_cons, ← others] at member
      exact led other member

/-- A program with statements has tokens. -/
theorem solid_ne_nil (accepts : Accepts .initial place chars lexemes program)
    (some_ : program.children ≠ []) : Lexeme.solid lexemes ≠ [] := by
  intro nothing
  obtain ⟨after, -, finished, same, -⟩ := accepts.advances none
  rw [same nothing] at finished
  cases finished
  exact some_ rfl

end Accepts

/-- The first token in the text of a program. -/
def FirstLexeme (source : String) (lexeme : Lexeme) : Prop :=
  ∃ lexemes program, Accepts .initial .start source.toList lexemes program ∧
    (Lexeme.solid lexemes).head? = some lexeme

/-- The last token in the text of a program. -/
def LastLexeme (source : String) (lexeme : Lexeme) : Prop :=
  ∃ lexemes program, Accepts .initial .start source.toList lexemes program ∧
    (Lexeme.solid lexemes).getLast? = some lexeme

section Ends

variable {source : String} {program : Tree}

/-- A program with statements has a first token. -/
theorem exists_firstLexeme (parsed : parse source = .ok program) (some_ : program.children ≠ []) :
    ∃ first, FirstLexeme source first := by
  obtain ⟨lexemes, accepts⟩ := accepts_of_parse parsed
  obtain ⟨first, starts⟩ := Option.ne_none_iff_exists'.mp
    (mt List.head?_eq_none_iff.mp (accepts.solid_ne_nil some_))
  exact ⟨first, lexemes, program, accepts, starts⟩

/-- A program with statements has a last token. -/
theorem exists_lastLexeme (parsed : parse source = .ok program) (some_ : program.children ≠ []) :
    ∃ last, LastLexeme source last := by
  obtain ⟨lexemes, accepts⟩ := accepts_of_parse parsed
  obtain ⟨last, ends⟩ := Option.ne_none_iff_exists'.mp
    (mt List.getLast?_eq_none_iff.mp (accepts.solid_ne_nil some_))
  exact ⟨last, lexemes, program, accepts, ends⟩

end Ends

end Reader

end Scriptlet
