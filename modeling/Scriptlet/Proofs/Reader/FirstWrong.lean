/-
**A text is refused at the first place where it cannot be completed.**

* `Report.TextBefore`: the text before the place that a report shows; there is only one
  (`Report.TextBefore.unique`), as places only move forwards.
* `Rejection.Blames`: a token is to blame for a text's being refused, and shows where it stands.
* `Condemned`: no text that goes on with a blank after some characters is a program.

Main statement: `refused_at_first_wrong_place`. What has been read before the place can be completed
to a program; where the end of the text is refused, so can the whole text after the end of a line;
and where a token is refused, nothing that comes after it makes the text a program.
-/
import Scriptlet.Proofs.Reader.Advances
import Scriptlet.Proofs.Reader.Completion
import Scriptlet.Proofs.Reader.RoundTrip

namespace Scriptlet

/-! ### Places -/

namespace Position

/-- On an earlier line, or further to the left on the same one. -/
def Before (place other : Position) : Prop :=
  place.line < other.line ∨ place.line = other.line ∧ place.column < other.column

theorem Before.trans {first second third : Position} (before : first.Before second)
    (further : second.Before third) : first.Before third := by
  unfold Before at *
  omega

theorem before_after (place : Position) (c : Char) : place.Before (place.after c) := by
  unfold Before after
  split <;> simp

/-- Characters move a place forwards. -/
theorem before_afterAll (place : Position) (first : Char) (chars : List Char) :
    place.Before (place.afterAll (first :: chars)) := by
  induction chars generalizing place first with
  | nil => exact place.before_after first
  | cons second chars ih => exact (place.before_after first).trans (ih (place.after first) second)

end Position

/-- The text before the place that a report shows. -/
structure Report.TextBefore (report : Report) (chars before : List Char) : Prop where
  isPrefix : before <+: chars
  line : report.line = some ((Position.start.afterAll before).line : Int)
  column : report.column = some ((Position.start.afterAll before).column : Int)

/-- **A line and a column tell how much of a text is before them.** -/
theorem Report.TextBefore.unique {report : Report} {chars before other : List Char}
    (here : report.TextBefore chars before) (there : report.TextBefore chars other) :
    before = other := by
  have longer : ∀ {before more : List Char}, report.TextBefore chars before →
      report.TextBefore chars (before ++ more) → more = [] := by
    intro before more here there
    cases more with
    | nil => rfl
    | cons c more =>
      have forwards := (Position.start.afterAll before).before_afterAll c more
      have parts : Position.start.afterAll (before ++ c :: more) =
          (Position.start.afterAll before).afterAll (c :: more) := by simp [Position.afterAll]
      have line := here.line.symm.trans there.line
      have column := here.column.symm.trans there.column
      rw [parts] at line column
      unfold Position.Before at forwards
      simp only [Option.some.injEq, Int.ofNat_inj] at line column
      omega
  rcases List.prefix_or_prefix_of_prefix here.isPrefix there.isPrefix with within | within
  · obtain ⟨more, rfl⟩ := within
    rw [longer here there, List.append_nil]
  · obtain ⟨more, rfl⟩ := within
    rw [longer there here, List.append_nil]

/-- No text that goes on with a blank after the characters is a program. -/
def Condemned (chars : List Char) : Prop :=
  ∀ blank more program, Text.isBlank blank = true →
    parse (String.ofList (chars ++ blank :: more)) ≠ .ok program

/-! ### What is refused -/

namespace Rejection

/-- The token that is refused, if it is one. -/
def token? : Rejection → Option Token
  | unexpectedToken token _ | outOfRange token => some token
  | _ => none

/-- A token is to blame. -/
inductive Blames (token : Token) : Rejection → Prop
  | unexpected (expected : List Kind) : Blames token (unexpectedToken token expected)
  | outOfRange : Blames token (outOfRange token)
  | misread (reason : Number.Misread) : Blames token (misread reason)

/-- A report, if there is one, shows a place. -/
def Shows (rejection : Rejection) (place : Position) : Prop :=
  ∀ report, rejection.report? = some report →
    report.line = some (place.line : Int) ∧ report.column = some (place.column : Int)

/-- The token that is to blame shows where it stands. -/
theorem Blames.shows {token : Token} {rejection : Rejection} (blames : Blames token rejection) :
    rejection.Shows token.place := by
  intro report reported
  cases blames with
  | unexpected | outOfRange =>
    cases reported
    exact ⟨rfl, rfl⟩
  | misread => cases reported

/-- A token that is refused is the one to blame. -/
theorem Blames.eq {token other : Token} {rejection : Rejection} (blames : Blames token rejection)
    (named : rejection.token? = some other) : other = token := by
  cases blames with
  | unexpected | outOfRange => exact (Option.some.inj named).symm
  | misread => cases named

/-- The end of a text is no token. -/
theorem Blames.ne_unexpectedEnd {token : Token} {rejection : Rejection}
    (blames : Blames token rejection) (last : Option Token) (expected : List Kind) :
    rejection ≠ .unexpectedEnd last expected := by
  rintro rfl
  cases blames

end Rejection

namespace Reader

open Rejection

/-- A number that cannot be taken is to blame. -/
theorem blames_of_rangeFault {token : Token} {fault : Rejection}
    (found : rangeFault? token = some fault) : Blames token fault := by
  unfold rangeFault? at found
  split at found
  · split at found
    · split at found
      · cases found
        exact .outOfRange
      · cases found
    · cases found
      exact .misread _
  · cases found

/-- A token that cannot be taken is to blame. -/
theorem blames_of_takeToken {state : State} {token : Token} {rejection : Rejection}
    (refused : takeToken state token = .error rejection) : Blames token rejection := by
  unfold takeToken at refused
  split at refused
  next fault =>
    cases refused
    exact blames_of_rangeFault fault
  · split at refused
    · cases refused
    · cases refused
      exact .unexpected []
    · cases refused
      exact .unexpected _

/-- Where nothing looked for is found, any lexeme is to blame, or a character. -/
theorem blames_of_mismatch (state : State) (place : Position) (c : Char) (rest : List Char) :
    (∃ lexeme, Lexeme.scanAny (c :: rest) = some lexeme ∧
        Blames (lexeme.toToken place) (mismatch state place c rest)) ∨
      mismatch state place c rest = .unexpectedCharacter c place := by
  unfold mismatch
  split
  next lexeme found =>
    refine Or.inl ⟨lexeme, found, ?_⟩
    simp only
    cases fault : rangeFault? (lexeme.toToken place) with
    | none => exact .unexpected _
    | some reason => exact blames_of_rangeFault fault
  · exact Or.inr rfl

/-- The end of a text is refused as such. -/
theorem takeEnd_eq_error {state : State} {last : Option Token} {rejection : Rejection}
    (refused : takeEnd state last = .error rejection) :
    ∃ expected, rejection = .unexpectedEnd last expected := by
  unfold takeEnd at refused
  split at refused
  · cases refused
  · cases refused
    exact ⟨_, rfl⟩
  · cases refused
    exact ⟨_, rfl⟩

/-! ### What has been read -/

/-- The reader stays placed as it advances. -/
theorem Advances.placed {rest : List Char} {stage after : Stage} {chars : List Char}
    (advances : Advances rest stage chars after) (placed : stage.state.Placed) :
    after.state.Placed := by
  induction advances with
  | done stage => exact placed
  | spacing _ _ ih | comment _ _ _ ih => exact ih placed
  | @token stage _ lexeme _ next _ _ taken _ ih =>
    have reply := placed.take (lexeme.toToken stage.place)
    rw [(takeToken_eq_ok taken).2] at reply
    exact ih reply

/-- **What has been read can be completed** after the end of a line. -/
theorem Advances.completable {rest chars : List Char} {after : Stage}
    (advances : Advances rest .initial chars after) :
    ∃ more program, parse (String.ofList (chars ++ '\n' :: more)) = .ok program := by
  obtain ⟨tokens, program, plain, reads⟩ := (advances.placed State.Placed.initial).completable
  obtain ⟨read, done, -⟩ := @read_of_reads _ _ _ reads plain (after.past ['\n']) rfl
  refine ⟨writtenAll tokens, read, ?_⟩
  have seam : Seam (· == '\n') rest ('\n' :: writtenAll tokens) := ⟨'\n', _, rfl, Or.inl rfl⟩
  rw [parse, String.toList_ofList]
  exact (advances.of_seam seam).read_eq.trans ((after.read_spacing rfl _).trans done)

/-- What is refused after some lexeme is refused whatever follows the lexeme. -/
theorem Advances.condemned {chars : List Char} {after : Stage} {lexeme : Lexeme}
    {rest : List Char} (advances : Advances (lexeme.written ++ rest) .initial chars after)
    (some_ : lexeme.written ≠ [])
    (refused : ∀ rest', Seam Text.isBlank rest rest' →
      ∃ rejection, after.read (lexeme.written ++ rest') = .error rejection) :
    Condemned (chars ++ lexeme.written) := by
  intro blank more program isBlank parsed
  obtain ⟨first, written, starts⟩ := List.exists_cons_of_ne_nil some_
  have seam : Seam (· == '\n') (lexeme.written ++ rest) (lexeme.written ++ blank :: more) :=
    ⟨first, written ++ blank :: more, by rw [starts]; rfl, Or.inr ⟨_, by rw [starts]; rfl⟩⟩
  obtain ⟨rejection, stopped⟩ := refused (blank :: more) ⟨blank, more, rfl, Or.inl isBlank⟩
  have read := (advances.of_seam seam).read_eq.trans stopped
  rw [parse, String.toList_ofList, List.append_assoc] at parsed
  cases parsed.symm.trans read

/-- A token that the reader refuses is refused whatever follows. -/
theorem Advances.condemned_of_refused {chars rest : List Char} {after : Stage} {lexeme : Lexeme}
    {rejection : Rejection} (advances : Advances (lexeme.written ++ rest) .initial chars after)
    (found : Lexeme.scan after.state.awaited.contains (lexeme.written ++ rest) = some lexeme)
    (solid : lexeme.kind.isLayout = false)
    (refused : takeToken after.state (lexeme.toToken after.place) = .error rejection) :
    Condemned (chars ++ lexeme.written) := by
  refine advances.condemned (Lexeme.scan_written found).2 fun rest' seam => ⟨rejection, ?_⟩
  rw [after.read_token (Lexeme.scan_of_seam found solid seam) solid, refused]
  rfl

/-- A lexeme that is not looked for is not found whatever follows. -/
theorem Advances.condemned_of_mismatch {chars rest : List Char} {after : Stage} {lexeme : Lexeme}
    (advances : Advances (lexeme.written ++ rest) .initial chars after)
    (missed : Lexeme.scan after.state.awaited.contains (lexeme.written ++ rest) = none)
    (any : Lexeme.scanAny (lexeme.written ++ rest) = some lexeme) :
    Condemned (chars ++ lexeme.written) := by
  have some_ := (Lexeme.scan_written any).2
  refine advances.condemned some_ fun rest' seam => ?_
  have again := Lexeme.scan_eq_none_of_seam missed any seam
  obtain ⟨first, written, starts⟩ := List.exists_cons_of_ne_nil some_
  rw [starts, List.cons_append] at again ⊢
  refine ⟨mismatch after.state after.place first (written ++ rest'), ?_⟩
  rw [Stage.read, readFrom, again]

/-! ### Where it is refused -/

variable {source : String} {chars rest : List Char} {after : Stage} {rejection : Rejection}
  {report : Report}

/-- The text before the place that the end of a text shows. -/
theorem textBefore_of_ending (advances : Advances [] .initial chars after)
    {expected : List Kind} (reported : (unexpectedEnd after.last expected).report? = some report) :
    ∃ before, report.TextBefore chars before ∧
      ∃ more program, parse (String.ofList (before ++ more)) = .ok program := by
  obtain ⟨line, column⟩ : report.line = some ((endPlace after.last).line : Int) ∧
      report.column = some ((endPlace after.last).column : Int) := by
    cases reported
    exact ⟨rfl, rfl⟩
  have nothing : endPlace after.last = .start →
      ∃ before, report.TextBefore chars before ∧
        ∃ more program, parse (String.ofList (before ++ more)) = .ok program := by
    intro start
    rw [start] at line column
    have none : Advances [] .initial [] .initial := .done .initial
    obtain ⟨more, program, parsed⟩ := none.completable
    exact ⟨[], ⟨List.nil_prefix, line, column⟩, _, program, parsed⟩
  rcases advances.last_cases with ⟨last, -⟩ | ⟨before, behind, token, rfl, took⟩
  · exact nothing (by rw [last]; rfl)
  · by_cases empty : token.text = ""
    · exact nothing (by rw [took.last, endPlace, if_pos empty])
    · rw [took.last, endPlace, if_neg empty, took.place] at line column
      obtain ⟨more, program, parsed⟩ := advances.completable
      rw [List.append_assoc] at parsed
      exact ⟨before, ⟨List.prefix_append _ _, line, column⟩, _, program, parsed⟩

/-- The text before the place of anything else that is refused. -/
theorem textBefore_of_shows (advances : Advances rest .initial chars after)
    (shows_ : rejection.Shows after.place) (reported : rejection.report? = some report) :
    report.TextBefore (chars ++ rest) chars := by
  obtain ⟨line, column⟩ := shows_ report reported
  rw [advances.place_eq] at line column
  exact ⟨List.prefix_append _ _, line, column⟩

/-- The token that is to blame stands after what has been read. -/
theorem exists_condemned {lexeme : Lexeme} {token : Token}
    (advances : Advances (lexeme.written ++ rest) .initial chars after)
    (blames : Blames (lexeme.toToken after.place) rejection)
    (condemned : Condemned (chars ++ lexeme.written))
    (reported : rejection.report? = some report) (named : rejection.token? = some token) :
    ∃ (before : List Char) (lexeme' : Lexeme),
      report.TextBefore (chars ++ (lexeme.written ++ rest)) before ∧
        before ++ lexeme'.written <+: chars ++ (lexeme.written ++ rest) ∧
        token = lexeme'.toToken (Position.start.afterAll before) ∧
        Condemned (before ++ lexeme'.written) := by
  refine ⟨chars, lexeme, textBefore_of_shows advances blames.shows reported,
    ⟨rest, List.append_assoc _ _ _⟩, ?_, condemned⟩
  rw [blames.eq named, advances.place_eq]
  rfl

end Reader

open Reader Rejection

/-- **A text is refused at the first wrong place**: what is before it can be completed; a text whose
end is refused can be continued on a new line; a text cannot be continued after a token that is
refused. -/
theorem refused_at_first_wrong_place {source : String} {rejection : Rejection} {report : Report}
    (refused : parse source = .error rejection) (reported : rejection.report? = some report) :
    (∃ before, report.TextBefore source.toList before ∧
      ∃ more program, parse (String.ofList (before ++ more)) = .ok program) ∧
    (∀ last expected, rejection = .unexpectedEnd last expected →
      ∃ more program, parse (source ++ "\n" ++ more) = .ok program) ∧
    (∀ token, rejection.token? = some token → ∃ (before : List Char) (lexeme : Lexeme),
      report.TextBefore source.toList before ∧ before ++ lexeme.written <+: source.toList ∧
        token = lexeme.toToken (Position.start.afterAll before) ∧
        Condemned (before ++ lexeme.written)) := by
  obtain ⟨read, rest, after, text, advances, stops⟩ := advances_of_parse source
  have complete : ∃ more program, parse (String.ofList (read ++ more)) = .ok program := by
    obtain ⟨more, program, parsed⟩ := advances.completable
    exact ⟨_, program, parsed⟩
  rw [text]
  generalize parse source = result at refused stops
  cases stops with
  | ending =>
    obtain ⟨expected, rfl⟩ := takeEnd_eq_error refused
    rw [List.append_nil] at text ⊢
    refine ⟨textBefore_of_ending advances reported, fun _ _ _ => ?_, fun _ none => by cases none⟩
    obtain ⟨more, program, parsed⟩ := advances.completable
    refine ⟨String.ofList more, program, ?_⟩
    rw [← parsed, ← text]
    congr 1
    apply String.toList_inj.mp
    simp
  | refused found solid refusal =>
    cases refused
    have blames := blames_of_takeToken refusal
    refine ⟨⟨read, textBefore_of_shows advances blames.shows reported, complete⟩,
      fun last expected ending => absurd ending (blames.ne_unexpectedEnd last expected), ?_⟩
    exact fun token => exists_condemned advances blames
      (advances.condemned_of_refused found solid refusal) reported
  | @mismatch c behind missed =>
    cases refused
    rcases blames_of_mismatch after.state after.place c behind with ⟨lexeme, any, blames⟩ | other
    · obtain ⟨following, parts⟩ := (Lexeme.scan_written any).1
      rw [← parts] at advances missed any ⊢
      refine ⟨⟨read, textBefore_of_shows advances blames.shows reported, complete⟩,
        fun last expected ending => absurd ending (blames.ne_unexpectedEnd last expected), ?_⟩
      exact fun token => exists_condemned advances blames
        (advances.condemned_of_mismatch missed any) reported
    · rw [other] at reported ⊢
      have shows_ : (unexpectedCharacter c after.place).Shows after.place := by
        rintro _ ⟨⟩
        exact ⟨rfl, rfl⟩
      refine ⟨⟨read, textBefore_of_shows advances shows_ reported, complete⟩, ?_, ?_⟩
      · rintro last expected ⟨⟩
      · rintro token ⟨⟩

/-- A value may still follow before a semicolon, but not after it; at the end of a text it may. -/
theorem refused_at_first_wrong_place_binding :
    (∃ rejection report, parse "let x =\n ;" = .error rejection ∧
      rejection.report? = some report ∧ report.line = some 2 ∧ report.column = some 2 ∧
      (∃ before, report.TextBefore "let x =\n ;".toList before ∧
        ∃ more program, parse (String.ofList (before ++ more)) = .ok program) ∧
      ∃ (before : List Char) (lexeme : Lexeme),
        report.TextBefore "let x =\n ;".toList before ∧
          before ++ lexeme.written <+: "let x =\n ;".toList ∧
          lexeme.toToken (Position.start.afterAll before) = ⟨.semicolon, ";", ⟨2, 2, 9⟩, 10⟩ ∧
          Condemned (before ++ lexeme.written)) ∧
    ∃ rejection, parse "let x =" = .error rejection ∧
      ∃ more program, parse ("let x =" ++ "\n" ++ more) = .ok program := by
  have wrong : parse "let x =\n ;" = .error
      (.unexpectedToken ⟨.semicolon, ";", ⟨2, 2, 9⟩, 10⟩ (State.sought ⟨[], .operand⟩)) := rfl
  have short : parse "let x =" = .error
      (.unexpectedEnd (some ⟨.assign, "=", ⟨1, 7, 6⟩, 7⟩) operandStart) := rfl
  refine ⟨⟨_, _, wrong, rfl, rfl, rfl, (refused_at_first_wrong_place wrong rfl).1, ?_⟩,
    ⟨_, short, ?_⟩⟩
  · obtain ⟨before, lexeme, text, leads, token, condemned⟩ :=
      (refused_at_first_wrong_place wrong rfl).2.2 _ rfl
    exact ⟨before, lexeme, text, leads, token.symm, condemned⟩
  · exact (refused_at_first_wrong_place short rfl).2.1 _ _ rfl

end Scriptlet
