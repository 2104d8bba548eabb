/-
**From one state to another.**

* `Reader.Reaches`: wherever the reader stands in one state, it passes characters that are followed
  by the rest of a text, and comes to another state. Places do not matter.
* `Reader.Stands`: an operand is awaited, or a statement, which an operand may start.

Main statements: steps of this kind follow one another (`Reaches.append`); written tokens and spaces
are such steps (`Reaches.token`, `Reaches.space`), and so are items between brackets with commas
(`reaches_enclosed`).
-/
import Mathlib.Data.List.Forall2
import Scriptlet.Proofs.Reader.RoundTrip

namespace Scriptlet

/-- A mark of one character is plain, and is written so. -/
theorem Token.plain_mark {kind : Kind} {c : Char}
    (spelled : kind.spelling?.map String.toList = some [c]) :
    (Token.mark kind).Plain ∧ (Token.mark kind).written = [c] := by
  obtain ⟨spelling, spelled, letters⟩ := Option.map_eq_some_iff.mp spelled
  have text : (Token.mark kind).text = spelling := by rw [Token.mark, spelled, Option.getD_some]
  constructor
  · refine Or.inr (Or.inr (Or.inr ?_))
    rw [text]
    exact spelled
  · rw [Token.Plain.written_of_ne, text, letters]
    rintro string
    rw [show kind = .string from string] at spelled
    cases spelled

namespace Reader

/-- What is read in two parts is read as a whole. -/
theorem Advances.append {rest chars more : List Char} {stage middle after : Stage}
    (first : Advances (more ++ rest) stage chars middle)
    (second : Advances rest middle more after) :
    Advances rest stage (chars ++ more) after := by
  induction first with
  | done stage => exact second
  | spacing space _ ih => exact .spacing space (ih second)
  | comment found comment _ ih =>
    rw [List.append_assoc]
    exact .comment (by simpa using found) comment (ih second)
  | token found solid taken _ ih =>
    rw [List.append_assoc]
    exact .token (by simpa using found) solid taken (ih second)

/-- From a state, places aside, the reader passes characters that are followed by the rest of a text
and comes to another state. -/
def Reaches (rest : List Char) (state : State) (chars : List Char) (next : State) : Prop :=
  ∀ stage : Stage, stage.state.unplaced = state.unplaced →
    ∃ after, Advances rest stage chars after ∧ after.state.unplaced = next.unplaced

namespace Reaches

variable {rest chars more : List Char} {state middle next : State}

theorem refl : Reaches rest state [] state :=
  fun stage alike => ⟨stage, .done stage, alike⟩

/-- **Steps follow one another.** -/
theorem append (first : Reaches (more ++ rest) state chars middle)
    (second : Reaches rest middle more next) : Reaches rest state (chars ++ more) next := by
  intro stage alike
  obtain ⟨between, advances, alike⟩ := first stage alike
  obtain ⟨after, further, alike⟩ := second between alike
  exact ⟨after, advances.append further, alike⟩

/-- A space is passed over. -/
theorem space (onward : Reaches rest state more next) : Reaches rest state (' ' :: more) next := by
  intro stage alike
  obtain ⟨after, advances, alike⟩ := onward (stage.past [' ']) alike
  exact ⟨after, .spacing rfl advances, alike⟩

/-- A lexeme that is scanned in a state and taken there, wherever it stands, leads on. -/
theorem of_lexeme {lexeme : Lexeme} {token : Token}
    (scanned : Lexeme.scan state.awaited.contains (lexeme.written ++ (more ++ rest)) = some lexeme)
    (solid : lexeme.kind.isLayout = false)
    (same : ∀ place, (lexeme.toToken place).unplaced = token.unplaced) (inRange : token.InRange)
    (taken : state.take token = .next middle) (onward : Reaches rest middle more next) :
    Reaches rest state (lexeme.written ++ more) next := by
  intro stage alike
  have awaited : stage.state.awaited = state.awaited := by
    rw [← State.awaited_unplaced, alike, State.awaited_unplaced]
  obtain ⟨between, replied, alike⟩ := take_next_of_unplaced alike (same stage.place) taken
  obtain ⟨after, advances, alike⟩ := onward (stage.after lexeme between) alike
  have taken := takeToken_of_inRange (inRange.of_unplaced (same stage.place)) replied
  exact ⟨after, .token (by rwa [awaited]) solid taken advances, alike⟩

/-- What is scanned in a state and taken there leads on. -/
theorem of_scan {token : Token}
    (scanned : Lexeme.scan state.awaited.contains (token.written ++ (more ++ rest)) =
      some ⟨token.kind, token.written⟩)
    (solid : token.kind.isLayout = false) (inRange : token.InRange)
    (taken : state.take token = .next middle) (onward : Reaches rest middle more next) :
    Reaches rest state (token.written ++ more) next := by
  refine @of_lexeme _ _ _ _ _ ⟨token.kind, token.written⟩ token scanned solid (fun place => ?_)
    inRange taken onward
  rw [Lexeme.toToken, Token.Plain.text_lexeme token]
  rfl

/-- Layout is passed over; a comment goes as far as before. -/
theorem layout {lexeme : Lexeme} (isLayout : lexeme.kind.isLayout = true)
    (found : lexeme.kind = .comment → ∀ looksFor,
      Lexeme.scan looksFor (lexeme.written ++ (more ++ rest)) = some lexeme)
    (spacing : lexeme.kind = .blanks → ∀ c ∈ lexeme.written, isSpacing c = true)
    (onward : Reaches rest state more next) : Reaches rest state (lexeme.written ++ more) next := by
  intro stage alike
  obtain ⟨after, advances, alike⟩ := onward (stage.past lexeme.written) alike
  refine ⟨after, ?_, alike⟩
  by_cases comment : lexeme.kind = .comment
  · exact .comment (found comment _) comment advances
  · have blanks : lexeme.kind = .blanks := by simpa [Kind.isLayout, comment] using isLayout
    exact .of_spacing (spacing blanks) advances

/-- **A written token that is awaited is taken**, if what follows does not go on with it. -/
theorem token {token : Token} (plain : token.Plain) (awaited : token.kind ∈ state.awaited)
    (taken : state.take token = .next middle) (apart : token.kind.Apart (more ++ rest))
    (onward : Reaches rest middle more next) : Reaches rest state (token.written ++ more) next :=
  .of_scan
    (plain.scan state.awaited.contains (List.contains_iff_mem.mpr awaited)
      (fun word => List.contains_iff_mem.mpr (identifier_mem_awaited word awaited)) apart)
    plain.isLayout_eq_false plain.inRange taken onward

/-- **A name is taken where names are awaited** and no word that it spells is. -/
theorem name {name : Token} (kind : name.kind = .identifier)
    (isName : IsNameText name.text.toList) (awaited : .identifier ∈ state.awaited)
    (unsought : ∀ word, Kind.ofWord? name.text = some word → word ∉ state.awaited)
    (taken : state.take name = .next middle) (apart : Kind.identifier.Apart (more ++ rest))
    (onward : Reaches rest middle more next) :
    Reaches rest state (name.text.toList ++ more) next := by
  have written : name.written = name.text.toList :=
    Token.Plain.written_of_ne (by simp [kind])
  have scanned : Lexeme.scan state.awaited.contains (name.written ++ (more ++ rest)) =
      some ⟨name.kind, name.written⟩ := by
    rw [written, kind, Lexeme.scan_name isName apart (List.contains_iff_mem.mpr awaited),
      Lexeme.settle, if_pos rfl, String.ofList_toList]
    split
    next word spelled =>
      rw [if_neg fun sought => unsought word spelled (List.contains_iff_mem.mp sought)]
    · rfl
  rw [← written]
  exact .of_scan scanned (by rw [kind]; rfl) (if_neg (by simp [kind])) taken onward

/-- A mark of one character that is awaited is taken. -/
theorem mark {c : Char} (kind : Kind) (spelled : kind.spelling?.map String.toList = some [c])
    (awaited : state.awaited.contains kind = true) (taken : state.take (.mark kind) = .next middle)
    (apart : kind.Apart (more ++ rest)) (onward : Reaches rest middle more next) :
    Reaches rest state (c :: more) next := by
  obtain ⟨plain, written⟩ := Token.plain_mark spelled
  have reached := token plain (List.contains_iff_mem.mp awaited) taken apart onward
  rwa [written] at reached

end Reaches

/-! ### Where operands may stand -/

/-- An operand is awaited, or a statement, which an operand may start. -/
def Stands (state : State) : Prop :=
  state.point = .operand ∨
    AwaitsStatement state.point ∧ ∃ done within, state.frames = .statements done :: within

/-- What starts an operand is awaited and taken there. -/
theorem Stands.start {frames : List Frame} {point : Point} {token : Token} {next : State}
    (stands : Stands ⟨frames, point⟩) (started : startOperand frames token = some next) :
    token.kind ∈ (⟨frames, point⟩ : State).awaited ∧
      (⟨frames, point⟩ : State).take token = .next next := by
  have starts := startOperand_mem started
  rcases stands with operand | ⟨awaits, done, within, statements⟩
  · obtain rfl : point = .operand := operand
    refine ⟨mem_operandAwaited starts, ?_⟩
    show takeOperand frames token = .next next
    unfold takeOperand
    rw [started]
  · obtain rfl : frames = .statements done :: within := statements
    have other : token.kind ∉ [.letWord, .returnWord, .closeBrace, .ending] := by
      have known : ∀ kind ∈ operandStart, kind ∉ [.letWord, .returnWord, .closeBrace, .ending] := by
        decide
      exact known _ starts
    have taken : takeStatement done within token = .next next := by
      rw [takeStatement_eq other, started]
    rcases awaits with opened | separated
    · obtain rfl : point = .opened := opened
      exact ⟨by simp [State.awaited, statementAwaited, statementStart, starts], taken⟩
    · obtain rfl : point = .separated := separated
      exact ⟨by simp [State.awaited, afterStatement, statementStart, starts], taken⟩

/-! ### Items between brackets -/

/-- What follows an operand goes on with no token. -/
def Ends (rest : List Char) : Prop :=
  ∀ c ∈ rest.head?, isNamePart c = false ∧ c ≠ '=' ∧ c ≠ '/'

/-- Such a text stands apart from every token. -/
theorem Ends.apart {rest : List Char} (ends : Ends rest) (kind : Kind) : kind.Apart rest := by
  intro c member
  obtain ⟨part, marks⟩ := ends c member
  split
  · exact marks
  · exact part

theorem Ends.cons {c : Char} (stops : isNamePart c = false ∧ c ≠ '=' ∧ c ≠ '/')
    (rest : List Char) : Ends (c :: rest) := by
  intro first member
  obtain rfl : c = first := by simpa using member
  exact stops

/-- An item of a list, with a comma or with the closing mark after it: `before` waits for an item
after those done, and a closing mark leads to `finish`. -/
structure Listed (before finish : List Tree → State) (close : Char) (tree : Tree) (text : String) :
    Prop where
  comma : ∀ {done rest}, Reaches (' ' :: rest) (before done) (text.toList ++ [','])
    (before (done ++ [tree]))
  closed : ∀ {done rest}, Ends rest → Reaches rest (before done) (text.toList ++ [close])
    (finish (done ++ [tree]))

/-- **A list with commas is read** up to its closing mark, if each of its items is. -/
theorem reaches_listed {before finish : List Tree → State} {close : Char} {rest : List Char}
    (ends : Ends rest) {trees : List Tree} {texts : List String}
    (each : List.Forall₂ (Listed before finish close) trees texts) (some_ : trees ≠ [])
    (done : List Tree) :
    Reaches rest (before done) ((", ".intercalate texts).toList ++ [close])
      (finish (done ++ trees)) := by
  rw [String.toList_intercalate]
  induction each generalizing done with
  | nil => exact absurd rfl some_
  | @cons tree text trees texts here others ih =>
    cases others with
    | nil => simpa using here.closed ends
    | @cons second text' _ texts' =>
      have later := ih (by simp) (done ++ [tree])
      have first := here.comma.append later.space
      rw [List.map_cons, List.map_cons, List.intercalate_cons_cons]
      simpa using first

/-- So it is with or without items. -/
theorem reaches_enclosed {before finish : List Tree → State} {close : Char} {rest : List Char}
    (ends : Ends rest) {trees : List Tree} {texts : List String}
    (each : List.Forall₂ (Listed before finish close) trees texts)
    (empty : Reaches rest (before []) [close] (finish [])) :
    Reaches rest (before []) ((", ".intercalate texts).toList ++ [close]) (finish trees) := by
  cases each with
  | nil => exact empty
  | cons here others => exact reaches_listed ends (.cons here others) (by simp) []

end Reader

end Scriptlet
