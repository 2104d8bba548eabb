/-
**Programs that end in a semicolon are read one after another as one program.**

* `Closed`: a text that is a program, without tokens or with a semicolon as the last of them, and
  `statementsOf`, its statements.
* `Reader.Between`: the reader between two statements of a program, after the given ones.
* `Reader.Resumes`: the reader stands in a program as it stands in another one without the
  statements at its start.

Main statement: `parse_joined`. Between statements a program is read as it is read by itself
(`Advances.resumed`), but that a closing brace is looked for there; and the end of a line ends every
lexeme before it.
-/
import Scriptlet.Proofs.Reader.Leading
import Scriptlet.Proofs.Reader.RoundTrip
import Scriptlet.Proofs.Reader.Underlay

namespace Scriptlet

namespace Reader

/-! ### Between two statements -/

/-- The reader between two statements of a program, after the given ones. -/
def Between (done : List Tree) (state : State) : Prop :=
  ∃ point, AwaitsStatement point ∧
    state.unplaced = (⟨[.statements done], point⟩ : State).unplaced

/-- A text may end between two statements. -/
theorem Between.takeEnd {done : List Tree} {state : State} (between : Between done state)
    (last : Option Token) :
    ∃ program, takeEnd state last = .ok program ∧
      program.unplaced = (Tree.node .program done).unplaced := by
  obtain ⟨point, awaits, alike⟩ := between
  refine takeEnd_of_unplaced alike ?_ last
  rcases awaits with rfl | rfl <;> rfl

/-! ### After other statements -/

/-- The second state is the first one in a program with earlier statements, places aside; where the
first is at the start of its program, the second is after a semicolon. -/
def Resumes (earlier : List Tree) (state state' : State) : Prop :=
  state'.unplaced = (state.underlay earlier).unplaced ∨
    state = .initial ∧ state'.unplaced = (⟨[.statements earlier], .separated⟩ : State).unplaced

variable {earlier : List Tree} {state state' : State}

theorem Resumes.of_between (between : Between earlier state') :
    Resumes earlier .initial state' := by
  obtain ⟨point, rfl | rfl, alike⟩ := between
  · refine Or.inl (alike.trans ?_)
    simp [State.initial, State.underlay, underlay, behind]
  · exact Or.inr ⟨rfl, alike⟩

/-- What is found in the one state is found in the other. -/
theorem Resumes.scan (resumes : Resumes earlier state state') {chars : List Char} {lexeme : Lexeme}
    (found : Lexeme.scan state.awaited.contains chars = some lexeme) :
    Lexeme.scan state'.awaited.contains chars = some lexeme := by
  rcases resumes with alike | ⟨rfl, alike⟩
  · have awaited : state'.awaited = state.awaited := by
      rw [← State.awaited_unplaced, alike, State.awaited_unplaced, State.awaited_underlay]
    rw [awaited]
    exact found
  · have awaited : state'.awaited = afterStatement := by
      rw [← State.awaited_unplaced, alike]
      rfl
    rw [awaited]
    have closes : Kind.closeBrace ∈ Kind.closers := by decide
    refine Lexeme.scan_closer closes (by decide) (fun kind other => ?_) found
    simp [afterStatement, State.awaited, State.initial, statementAwaited, other]

/-- What is taken in the one state is taken in the other. -/
theorem Resumes.take (resumes : Resumes earlier state state') (placed : state.Placed)
    {token token' : Token} (same : token'.unplaced = token.unplaced) {next : State}
    (taken : state.take token = .next next) :
    ∃ next', state'.take token' = .next next' ∧
      next'.unplaced = (next.underlay earlier).unplaced := by
  have replied : (state.underlay earlier).take token = .next (next.underlay earlier) := by
    rw [placed.take_underlay, taken]
    rfl
  rcases resumes with alike | ⟨rfl, alike⟩
  · exact take_next_of_unplaced alike same replied
  · refine take_next_of_unplaced alike same ?_
    rw [← replied]
    simp [State.initial, State.underlay, underlay, behind, State.take]

/-- **A program is read after other statements as it is by itself.** -/
theorem Advances.resumed {rest chars : List Char} {stage stage' after : Stage}
    (advances : Advances rest stage chars after) (placed : stage.state.Placed)
    (resumes : Resumes earlier stage.state stage'.state) :
    ∃ after', Advances rest stage' chars after' ∧ Resumes earlier after.state after'.state := by
  induction advances generalizing stage' with
  | done stage => exact ⟨stage', .done stage', resumes⟩
  | @spacing _ _ c _ space _ ih =>
    obtain ⟨after', advances, resumed⟩ := @ih (stage'.past [c]) placed resumes
    exact ⟨after', .spacing space advances, resumed⟩
  | @comment _ _ lexeme _ found comment _ ih =>
    obtain ⟨after', advances, resumed⟩ := @ih (stage'.past lexeme.written) placed resumes
    exact ⟨after', .comment (resumes.scan found) comment advances, resumed⟩
  | @token stage _ lexeme _ next found solid taken _ ih =>
    obtain ⟨inRange, replied⟩ := takeToken_eq_ok taken
    have placedNext := placed.take (lexeme.toToken stage.place)
    rw [replied] at placedNext
    have same : (lexeme.toToken stage'.place).unplaced = (lexeme.toToken stage.place).unplaced :=
      rfl
    obtain ⟨next', replied', alike⟩ := resumes.take placed same replied
    obtain ⟨after', advances, resumed⟩ :=
      @ih (stage'.after lexeme next') placedNext (Or.inl alike)
    have taken' := takeToken_of_inRange (inRange.of_unplaced same) replied'
    exact ⟨after', .token (resumes.scan found) solid taken' advances, resumed⟩

end Reader

/-! ### Closed texts -/

/-- The statements of a text that is a program. -/
def statementsOf (source : String) : List Tree :=
  match parse source with
  | .ok program => program.children
  | .error _ => []

/-- A text that is a program, without tokens or with a semicolon as the last of them. -/
def Closed (source : String) : Prop :=
  ∃ program after, parse source = .ok program ∧
    Reader.Advances [] .initial source.toList after ∧
      ∀ token, after.last = some token → token.kind = .semicolon

open Reader

/-- The last token of a program is a semicolon. -/
theorem Tree.Shaped.getLast?_spelled {holds : Token → Prop} {tree : Tree}
    (shaped : tree.Shaped holds .program) :
    tree.spelled.getLast? = none ∨ tree.spelled.getLast? = some (.mark .semicolon) := by
  cases shaped with
  | @program statements each =>
    rw [Tree.spelled]
    rcases List.eq_nil_or_concat (Tree.spelledAll statements) with none | ⟨others, last, parts⟩
    · rw [none]
      exact Or.inl rfl
    · rw [parts]
      exact Or.inr (by simp)

/-- **A printed program is closed.** -/
theorem closed_printed {tree : Tree} (shaped : tree.Shaped Token.Plain .program) :
    Closed tree.printed := by
  obtain ⟨after, advances, ⟨final, done, ends⟩, last⟩ :=
    @advances_of_spaced _ _ _ _ (spaced_writtenAll shaped.plain_of_mem_spelled)
      (reads_spelled shaped) .initial rfl
  obtain ⟨read, ended, -⟩ := takeEnd_of_unplaced ends done after.last
  have text : tree.printed.toList = writtenAll tree.spelled := String.toList_ofList
  rw [← text] at advances
  refine ⟨read, after, advances.read_all.trans ended, advances, fun token took => ?_⟩
  rw [took] at last
  rcases shaped.getLast?_spelled with none | semicolon
  · rw [none] at last
    cases last
  · rw [semicolon] at last
    exact congrArg Token.kind (Option.some.inj last)

/-- A closed text is read to its end, between two statements. -/
theorem Closed.advances {source : String} (closed : Closed source) :
    ∃ after point, Advances [] .initial source.toList after ∧ AwaitsStatement point ∧
      after.state = ⟨[.statements (statementsOf source)], point⟩ ∧
      parse source = .ok (.node .program (statementsOf source)) := by
  obtain ⟨program, after, parsed, advances, closing⟩ := closed
  have ended : takeEnd after.state after.last = .ok program :=
    advances.read_all.symm.trans parsed
  have statements : statementsOf source = program.children := by rw [statementsOf, parsed]
  rw [statements, parsed]
  rcases advances.last_cases with ⟨-, start⟩ | ⟨_, _, token, -, took⟩
  · rw [start] at ended
    cases ended
    exact ⟨after, .opened, advances, Or.inl rfl, start, rfl⟩
  · obtain ⟨state, taken⟩ := took.taken
    have reply := state.take_ledBy token
    rw [taken] at reply
    obtain ⟨done, within, separated⟩ := reply.separated (closing token took.last)
    rw [separated] at ended
    cases within with
    | nil =>
      cases ended
      exact ⟨after, .separated, advances, Or.inr rfl, separated, rfl⟩
    | cons => cases ended

/-- **A closed text is read between two statements as it is read by itself**, if a line ends after
it, or the text. -/
theorem Closed.resumed {source : String} (closed : Closed source) {earlier : List Tree}
    {stage : Stage} (between : Between earlier stage.state) :
    ∃ after : Stage, Between (earlier ++ statementsOf source) after.state ∧
      stage.read source.toList = after.read [] ∧
      ∀ more, stage.read (source.toList ++ '\n' :: more) = (after.past ['\n']).read more := by
  obtain ⟨alone, point, advances, awaits, state, -⟩ := closed.advances
  obtain ⟨after, advances, resumes⟩ :=
    advances.resumed State.Placed.initial (.of_between between)
  refine ⟨after, ?_, ?_, fun more => ?_⟩
  · rcases resumes with alike | ⟨initial, alike⟩
    · refine ⟨point, awaits, alike.trans ?_⟩
      simp [state, State.underlay, underlay, behind]
    · have none : statementsOf source = [] := by
        rw [state] at initial
        injection initial with frames
        simpa using frames
      exact ⟨.separated, Or.inr rfl, by rw [none, List.append_nil, alike]⟩
  · simpa using advances.read_eq
  · have seam : Seam (· == '\n') [] ('\n' :: more) := ⟨'\n', more, rfl, Or.inl rfl⟩
    exact (advances.of_seam seam).read_eq.trans (after.read_spacing rfl more)

/-! ### Joined texts -/

/-- Closed texts are read one after another. -/
theorem read_joined {sources : List String} (closed : ∀ source ∈ sources, Closed source)
    {earlier : List Tree} {stage : Stage} (between : Between earlier stage.state) :
    ∃ program, stage.read ("\n".intercalate sources).toList = .ok program ∧
      program.unplaced =
        (Tree.node .program (earlier ++ sources.flatMap statementsOf)).unplaced := by
  rw [String.toList_intercalate]
  induction sources generalizing earlier stage with
  | nil =>
    obtain ⟨program, ended, alike⟩ := between.takeEnd stage.last
    exact ⟨program, ended, by simpa using alike⟩
  | cons source others ih =>
    obtain ⟨here, closed⟩ := List.forall_mem_cons.mp closed
    obtain ⟨after, between, last, further⟩ := here.resumed between
    rw [List.flatMap_cons, ← List.append_assoc]
    cases others with
    | nil =>
      obtain ⟨program, ended, alike⟩ := between.takeEnd after.last
      exact ⟨program, by simpa using last.trans ended, by simpa using alike⟩
    | cons second others =>
      obtain ⟨program, read, alike⟩ := @ih closed _ (after.past ['\n']) between
      refine ⟨program, ?_, alike⟩
      rw [List.map_cons, List.map_cons, List.intercalate_cons_cons]
      simpa using (further _).trans read

/-- **Closed texts, a line for each, are read as one program** of all their statements. -/
theorem parse_joined {sources : List String} (closed : ∀ source ∈ sources, Closed source) :
    ∃ program, parse ("\n".intercalate sources) = .ok program ∧
      program.unplaced = (Tree.node .program (sources.flatMap statementsOf)).unplaced := by
  have between : Between [] State.initial := ⟨.opened, Or.inl rfl, rfl⟩
  exact @read_joined _ closed [] .initial between

end Scriptlet
