/-
**How far a text is read.**

* `Reader.Stage`: where the reader stands: its state, the last token taken, and the place.
* `Reader.Advances`: from a stage, the reader passes characters that are followed by the rest of the
  text, and comes to another stage. Spacing is passed one character at a time, so that a run of it
  may be cut anywhere.
* `Reader.Stops`: what becomes of a text at a stage from which the reader does not go on.

Main statements: every reading advances to where it stops (`advances_of_parse`); what comes after
that does not matter, if a line ends there or the text goes on with the same character
(`Advances.of_seam`), and the reading goes on from there (`Advances.read_eq`).
-/
import Scriptlet.Proofs.Reader.Accepts
import Scriptlet.Proofs.Token.Seams

namespace Scriptlet

/-- The lexeme of a run of spacing consists of spacing. -/
theorem Lexeme.isSpacing_of_scan {looksFor : Kind → Bool} {chars : List Char} {lexeme : Lexeme}
    (found : scan looksFor chars = some lexeme) (blanks : lexeme.kind = .blanks) :
    ∀ c ∈ lexeme.written, isSpacing c = true := by
  obtain ⟨-, written⟩ := (scan_starts found).of_kind (by rw [blanks]; rfl)
  intro c member
  rw [written, blanks, Kind.extent,
    ← List.prefix_iff_eq_take.mp (List.takeWhile_prefix isSpacing)] at member
  exact List.mem_takeWhile_imp member

/-- Spacing is scanned as far as it goes, whatever is looked for. -/
theorem Lexeme.scan_spacing (looksFor : Kind → Bool) {c : Char} (space : isSpacing c = true)
    (rest : List Char) :
    scan looksFor (c :: rest) = some ⟨.blanks, c :: rest.takeWhile isSpacing⟩ := by
  have noName := isNameStart_of_isSpacing space
  have extent : Kind.blanks.extent (c :: rest) = (rest.takeWhile isSpacing).length + 1 := by
    simp [Kind.extent, space]
  have scanned := scan_of_first looksFor .blanks (c :: rest) (by decide) rfl
    (fun other member => by
      have among : other ∈ [Kind.identifier] := member
      rw [List.mem_singleton.mp among]
      simp [Kind.extent, noName])
    (by rw [extent]; simp)
  rw [scanned, extent, List.take_succ_cons,
    ← List.prefix_iff_eq_take.mp (List.takeWhile_prefix isSpacing)]
  rfl

/-- Characters before both texts leave a seam. -/
theorem Seam.append {ends : Char → Bool} {rest rest' : List Char} (seam : Seam ends rest rest')
    (chars : List Char) : Seam ends (chars ++ rest) (chars ++ rest') := by
  cases chars with
  | nil => exact seam
  | cons first chars => exact ⟨first, _, rfl, Or.inr ⟨_, rfl⟩⟩

namespace Reader

/-- Where the reader stands in a text. -/
structure Stage where
  state : State
  last : Option Token
  place : Position

namespace Stage

/-- Before a text. -/
def initial : Stage :=
  ⟨.initial, none, .start⟩

/-- What is read from a stage on. -/
def read (stage : Stage) (chars : List Char) : Except Rejection Tree :=
  readFrom stage.state stage.last stage.place 0 chars

/-- The stage after characters that are passed over. -/
def past (stage : Stage) (chars : List Char) : Stage :=
  { stage with place := stage.place.afterAll chars }

/-- The stage after a token taken. -/
def after (stage : Stage) (lexeme : Lexeme) (next : State) : Stage :=
  ⟨next, some (lexeme.toToken stage.place), stage.place.afterAll lexeme.written⟩

end Stage

/-! ### One lexeme -/

/-- The characters of a lexeme that has been found are passed. -/
theorem readFrom_passing (state : State) (last : Option Token) (place : Position)
    (chars rest : List Char) :
    readFrom state last place chars.length (chars ++ rest) =
      readFrom state last (place.afterAll chars) 0 rest := by
  induction chars generalizing place with
  | nil => rfl
  | cons c chars ih => exact ih (place.after c)

/-- Layout is passed over. -/
theorem Stage.read_layout {stage : Stage} {lexeme : Lexeme} {rest : List Char}
    (found : Lexeme.scan stage.state.awaited.contains (lexeme.written ++ rest) = some lexeme)
    (layout : lexeme.kind.isLayout = true) :
    stage.read (lexeme.written ++ rest) = (stage.past lexeme.written).read rest := by
  obtain ⟨first, chars, written⟩ := List.exists_cons_of_ne_nil (Lexeme.scan_written found).2
  rw [written, List.cons_append] at found
  rw [Stage.read, Stage.read, written, List.cons_append, readFrom, found]
  simp only [layout, if_true, written]
  exact readFrom_passing stage.state stage.last (stage.place.after first) chars rest

/-- Any other lexeme is taken as a token. -/
theorem Stage.read_token {stage : Stage} {lexeme : Lexeme} {rest : List Char}
    (found : Lexeme.scan stage.state.awaited.contains (lexeme.written ++ rest) = some lexeme)
    (solid : lexeme.kind.isLayout = false) :
    stage.read (lexeme.written ++ rest) =
      (takeToken stage.state (lexeme.toToken stage.place)).bind fun next =>
        (stage.after lexeme next).read rest := by
  obtain ⟨first, chars, written⟩ := List.exists_cons_of_ne_nil (Lexeme.scan_written found).2
  have opened : stage.read (lexeme.written ++ rest) =
      readFrom stage.state stage.last stage.place 0 (first :: (chars ++ rest)) := by
    rw [Stage.read, written, List.cons_append]
  rw [written, List.cons_append] at found
  rw [opened, readFrom, found]
  simp only [solid, Bool.false_eq_true, if_false]
  cases takeToken stage.state (lexeme.toToken stage.place) with
  | error rejection => rfl
  | ok next =>
    have passed := readFrom_passing next (some (lexeme.toToken stage.place))
      (stage.place.after first) chars rest
    simp only [written, List.length_cons, Nat.add_sub_cancel, Except.bind]
    rw [passed, Stage.read, Stage.after, written]
    rfl

/-- A run of spacing is passed over, however long. -/
theorem Stage.read_run (stage : Stage) (chars : List Char) :
    stage.read chars =
      (stage.past (chars.takeWhile isSpacing)).read (chars.dropWhile isSpacing) := by
  cases chars with
  | nil => rfl
  | cons c rest =>
    cases space : isSpacing c with
    | false => simp [space, Stage.past, Position.afterAll]
    | true =>
      have parts := List.takeWhile_append_dropWhile (p := isSpacing) (l := rest)
      have found := Lexeme.scan_spacing stage.state.awaited.contains space rest
      have passed : stage.read (c :: rest.takeWhile isSpacing ++ rest.dropWhile isSpacing) =
          (stage.past (c :: rest.takeWhile isSpacing)).read (rest.dropWhile isSpacing) := by
        rw [← parts] at found
        exact @Stage.read_layout stage ⟨.blanks, c :: rest.takeWhile isSpacing⟩
          (rest.dropWhile isSpacing) (by simpa [parts] using found) rfl
      simpa [space, parts] using passed

/-- Spacing is passed over one character at a time. -/
theorem Stage.read_spacing (stage : Stage) {c : Char} (space : isSpacing c = true)
    (rest : List Char) : stage.read (c :: rest) = (stage.past [c]).read rest := by
  rw [Stage.read_run stage, Stage.read_run (stage.past [c])]
  simp [space, Stage.past, Position.afterAll]

/-! ### Reading on -/

/-- From a stage, characters that are followed by the rest of a text lead to another stage. -/
inductive Advances (rest : List Char) : Stage → List Char → Stage → Prop
  | done (stage : Stage) : Advances rest stage [] stage
  | spacing {stage after : Stage} {c : Char} {chars : List Char} : isSpacing c = true →
      Advances rest (stage.past [c]) chars after → Advances rest stage (c :: chars) after
  | comment {stage after : Stage} {lexeme : Lexeme} {chars : List Char} :
      Lexeme.scan stage.state.awaited.contains (lexeme.written ++ (chars ++ rest)) = some lexeme →
      lexeme.kind = .comment → Advances rest (stage.past lexeme.written) chars after →
      Advances rest stage (lexeme.written ++ chars) after
  | token {stage after : Stage} {lexeme : Lexeme} {chars : List Char} {next : State} :
      Lexeme.scan stage.state.awaited.contains (lexeme.written ++ (chars ++ rest)) = some lexeme →
      lexeme.kind.isLayout = false →
      takeToken stage.state (lexeme.toToken stage.place) = .ok next →
      Advances rest (stage.after lexeme next) chars after →
      Advances rest stage (lexeme.written ++ chars) after

/-- At a stage, the reader does not go on with the rest of a text. -/
inductive Stops (stage : Stage) : List Char → Except Rejection Tree → Prop
  | ending : Stops stage [] (takeEnd stage.state stage.last)
  | refused {lexeme : Lexeme} {rest : List Char} {rejection : Rejection} :
      Lexeme.scan stage.state.awaited.contains (lexeme.written ++ rest) = some lexeme →
      lexeme.kind.isLayout = false →
      takeToken stage.state (lexeme.toToken stage.place) = .error rejection →
      Stops stage (lexeme.written ++ rest) (.error rejection)
  | mismatch {c : Char} {rest : List Char} :
      Lexeme.scan stage.state.awaited.contains (c :: rest) = none →
      Stops stage (c :: rest) (.error (mismatch stage.state stage.place c rest))

/-- The last token was found after some characters, and led to the state. -/
structure TookLast (stage after : Stage) (before : List Char) (token : Token) : Prop where
  last : after.last = some token
  place : token.place = stage.place.afterAll before
  taken : ∃ state : State, state.take token = .next after.state

namespace Advances

variable {rest : List Char} {stage after : Stage} {chars : List Char}

/-- **The reading goes on** from the stage that it comes to. -/
theorem read_eq (advances : Advances rest stage chars after) :
    stage.read (chars ++ rest) = after.read rest := by
  induction advances with
  | done stage => rfl
  | @spacing stage _ c chars space _ ih => exact (stage.read_spacing space (chars ++ rest)).trans ih
  | comment found comment _ ih =>
    rw [List.append_assoc, Stage.read_layout found (by rw [comment]; rfl), ih]
  | token found solid taken _ ih =>
    rw [List.append_assoc, Stage.read_token found solid, taken]
    exact ih

/-- Where nothing follows, the text ends there. -/
theorem read_all (advances : Advances [] stage chars after) :
    stage.read chars = takeEnd after.state after.last := by
  have read := advances.read_eq
  rw [List.append_nil] at read
  exact read

/-- The place after the characters. -/
theorem place_eq (advances : Advances rest stage chars after) :
    after.place = stage.place.afterAll chars := by
  induction advances with
  | done stage => rfl
  | spacing _ _ ih => exact ih
  | comment _ _ _ ih | token _ _ _ _ ih =>
    rw [ih]
    simp [Stage.past, Stage.after, Position.afterAll]

/-- **What follows does not matter**, if a line ends there or it starts with the same character. -/
theorem of_seam {rest' : List Char} (advances : Advances rest stage chars after)
    (seam : Seam (· == '\n') rest rest') : Advances rest' stage chars after := by
  have blank : ∀ c, (c == '\n') = true → Text.isBlank c = true := by
    intro c ending
    rw [beq_iff_eq.mp ending]
    rfl
  induction advances with
  | done stage => exact .done stage
  | spacing space _ ih => exact .spacing space ih
  | comment found comment _ ih =>
    exact .comment (Lexeme.scan_comment_of_seam found comment (seam.append _)) comment ih
  | token found solid taken _ ih =>
    exact .token (Lexeme.scan_of_seam found solid ((seam.append _).mono blank)) solid taken ih

/-- A run of spacing leads on. -/
theorem of_spacing {blanks : List Char} (spacing : ∀ c ∈ blanks, isSpacing c = true)
    (advances : Advances rest (stage.past blanks) chars after) :
    Advances rest stage (blanks ++ chars) after := by
  induction blanks generalizing stage with
  | nil => exact advances
  | cons c blanks ih =>
    obtain ⟨here, others⟩ := List.forall_mem_cons.mp spacing
    exact .spacing here (ih others advances)

/-- The last token led to the state; without any token nothing has changed but the place. -/
theorem last_cases (advances : Advances rest stage chars after) :
    (after.last = stage.last ∧ after.state = stage.state) ∨
      ∃ before behind token, chars = before ++ behind ∧ TookLast stage after before token := by
  have further : ∀ {stage stage' after : Stage} {written chars : List Char},
      stage'.place = stage.place.afterAll written →
      (∃ before behind token, chars = before ++ behind ∧ TookLast stage' after before token) →
      ∃ before behind token, written ++ chars = before ++ behind ∧
        TookLast stage after before token := by
    rintro stage stage' after written chars place ⟨before, behind, token, rfl, took⟩
    refine ⟨written ++ before, behind, token, by simp, took.last, ?_, took.taken⟩
    rw [took.place, place]
    simp [Position.afterAll]
  induction advances with
  | done stage => exact Or.inl ⟨rfl, rfl⟩
  | @spacing stage after c chars _ _ ih => exact ih.imp_right (@further stage _ after [c] chars rfl)
  | comment _ _ _ ih => exact ih.imp_right (further rfl)
  | @token stage _ lexeme chars next _ _ taken _ ih =>
    refine Or.inr ?_
    rcases ih with ⟨last, state⟩ | took
    · refine ⟨[], lexeme.written ++ chars, lexeme.toToken stage.place, rfl, last, rfl,
        stage.state, ?_⟩
      rw [state]
      exact (takeToken_eq_ok taken).2
    · exact further rfl took

end Advances

/-- **Every reading advances to where it stops.** -/
theorem advances_of_readFrom (state : State) (last : Option Token) (place : Position)
    (passing : Nat) (chars : List Char) (within : passing ≤ chars.length) :
    ∃ read rest after, chars.drop passing = read ++ rest ∧
      Advances rest ⟨state, last, place.afterAll (chars.take passing)⟩ read after ∧
      Stops after rest (readFrom state last place passing chars) := by
  fun_induction readFrom state last place passing chars with
  | case1 state last place passing =>
    exact ⟨[], [], ⟨state, last, place⟩, by simp, by simpa using .done _, .ending⟩
  | case2 state last place c rest passing ih => exact ih (Nat.le_of_succ_le_succ within)
  | case3 state last place c rest missed =>
    exact ⟨[], c :: rest, ⟨state, last, place⟩, rfl, .done _, .mismatch missed⟩
  | case4 state last place c rest lexeme found passing layout ih =>
    obtain ⟨inside, parts, passed⟩ := Lexeme.rest_of_scan found
    obtain ⟨read, behind, after, text, advances, stops⟩ := ih inside
    rw [passed] at advances
    refine ⟨lexeme.written ++ read, behind, after, ?_, ?_, stops⟩
    · rw [List.drop_zero, parts, text, List.append_assoc]
    · rw [parts, text] at found
      by_cases comment : lexeme.kind = .comment
      · exact .comment found comment advances
      · have blanks : lexeme.kind = .blanks := by
          simpa [Kind.isLayout, comment] using layout
        exact .of_spacing (Lexeme.isSpacing_of_scan found blanks) advances
  | case5 state last place c rest lexeme found passing solid token next taken ih =>
    obtain ⟨inside, parts, passed⟩ := Lexeme.rest_of_scan found
    obtain ⟨read, behind, after, text, advances, stops⟩ := ih inside
    rw [passed] at advances
    refine ⟨lexeme.written ++ read, behind, after, ?_, ?_, stops⟩
    · rw [List.drop_zero, parts, text, List.append_assoc]
    · rw [parts, text] at found
      exact .token found (by simpa using solid) taken advances
  | case6 state last place c rest lexeme found solid token rejection refused =>
    obtain ⟨-, parts, -⟩ := Lexeme.rest_of_scan found
    refine ⟨[], c :: rest, ⟨state, last, place⟩, rfl, .done _, ?_⟩
    rw [parts] at found ⊢
    exact .refused found (by simpa using solid) refused

/-- A text is read to where the reading of it as a program stops. -/
theorem advances_of_parse (source : String) : ∃ read rest after,
    source.toList = read ++ rest ∧ Advances rest .initial read after ∧
      Stops after rest (parse source) :=
  advances_of_readFrom .initial none .start 0 source.toList (Nat.zero_le _)

end Reader

end Scriptlet
