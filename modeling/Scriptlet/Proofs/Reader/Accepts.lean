/-
**Texts that are accepted, lexeme by lexeme.**

* `Reader.Accepts`: from a state and a place, the reader finds lexemes one after the other that make
  up a text, passes over layout, takes the others as tokens, and finishes a program at the end.

Main statements: a text that is read as a program is accepted so (`accepts_of_parse`), its lexemes
make it up (`Accepts.covers`), and its program is shaped, with tokens as they stand in texts
(`Accepts.shaped`).
-/
import Scriptlet.Proofs.Reader.Reads
import Scriptlet.Proofs.Token.Lexing

namespace Scriptlet

/-- A text that is read without a fault is a program. -/
theorem exists_program_of_isOk {source : String} (accepted : (parse source).isOk = true) :
    ∃ program, parse source = .ok program := by
  generalize parse source = result at accepted
  cases result with
  | ok program => exact ⟨program, rfl⟩
  | error reason => cases accepted

/-- When the first character of a lexeme has been passed, the rest of it starts the rest. -/
theorem Lexeme.rest_of_scan {looksFor : Kind → Bool} {c : Char} {rest : List Char}
    {lexeme : Lexeme} (found : scan looksFor (c :: rest) = some lexeme) :
    lexeme.written.length - 1 ≤ rest.length ∧
      c :: rest = lexeme.written ++ rest.drop (lexeme.written.length - 1) ∧
      ∀ place : Position, (place.after c).afterAll (rest.take (lexeme.written.length - 1)) =
        place.afterAll lexeme.written := by
  obtain ⟨⟨after, parts⟩, some_⟩ := scan_written found
  obtain ⟨first, inner, written⟩ := List.exists_cons_of_ne_nil some_
  rw [written] at parts ⊢
  obtain ⟨rfl, rfl⟩ := List.cons.inj parts
  refine ⟨by simp, by simp, fun place => ?_⟩
  simp [Position.afterAll]

namespace Reader

/-- From a state, the reader accepts a text that lexemes make up, and finishes a program. -/
inductive Accepts : State → Position → List Char → List Lexeme → Tree → Prop
  | ending {state : State} {place : Position} {program : Tree} :
      state.take ending = .finished program → Accepts state place [] [] program
  | layout {state : State} {place : Position} {lexeme : Lexeme} {chars : List Char}
      {rest : List Lexeme} {program : Tree} :
      Lexeme.scan state.awaited.contains (lexeme.written ++ chars) = some lexeme →
      lexeme.kind.isLayout = true →
      Accepts state (place.afterAll lexeme.written) chars rest program →
      Accepts state place (lexeme.written ++ chars) (lexeme :: rest) program
  | token {state after : State} {place : Position} {lexeme : Lexeme} {chars : List Char}
      {rest : List Lexeme} {program : Tree} :
      Lexeme.scan state.awaited.contains (lexeme.written ++ chars) = some lexeme →
      lexeme.kind.isLayout = false → (lexeme.toToken place).InRange →
      state.take (lexeme.toToken place) = .next after →
      Accepts after (place.afterAll lexeme.written) chars rest program →
      Accepts state place (lexeme.written ++ chars) (lexeme :: rest) program

/-- A token in range is taken as the reader takes it. -/
theorem takeToken_of_inRange {state next : State} {token : Token} (inRange : token.InRange)
    (taken : state.take token = .next next) : takeToken state token = .ok next := by
  rw [takeToken, inRange]
  simp only [taken]

/-- A token that the reader takes without a fault is in range. -/
theorem takeToken_eq_ok {state after : State} {token : Token}
    (taken : takeToken state token = .ok after) :
    token.InRange ∧ state.take token = .next after := by
  unfold takeToken at taken
  split at taken
  · cases taken
  next inRange =>
    split at taken
    next reply =>
      cases taken
      exact ⟨inRange, reply⟩
    · cases taken
    · cases taken

/-- What is left of a text is accepted, once the characters of the last lexeme have been passed. -/
theorem accepts_of_readFrom {state : State} {last : Option Token} {place : Position}
    {passing : Nat} {chars : List Char} {program : Tree}
    (read : readFrom state last place passing chars = .ok program)
    (within : passing ≤ chars.length) :
    ∃ lexemes, Accepts state (place.afterAll (chars.take passing)) (chars.drop passing) lexemes
      program := by
  fun_induction readFrom state last place passing chars with
  | case1 state last place passing =>
    unfold takeEnd at read
    split at read
    next finished =>
      cases read
      simp only [List.take_nil, List.drop_nil]
      exact ⟨[], .ending finished⟩
    · cases read
    · cases read
  | case2 state last place c rest passing ih => exact ih read (Nat.le_of_succ_le_succ within)
  | case3 => cases read
  | case4 state last place c rest lexeme found passing layout ih =>
    obtain ⟨inside, parts, after⟩ := Lexeme.rest_of_scan found
    obtain ⟨lexemes, accepts⟩ := ih read inside
    rw [after] at accepts
    rw [parts] at found
    rw [List.drop_zero, parts]
    exact ⟨_, .layout found layout accepts⟩
  | case5 state last place c rest lexeme found passing solid token next taken ih =>
    obtain ⟨inside, parts, after⟩ := Lexeme.rest_of_scan found
    obtain ⟨lexemes, accepts⟩ := ih read inside
    obtain ⟨inRange, reply⟩ := takeToken_eq_ok taken
    rw [after] at accepts
    rw [parts] at found
    rw [List.drop_zero, parts]
    exact ⟨_, .token found (by simpa using solid) inRange reply accepts⟩
  | case6 => cases read

/-- **A text that is read as a program is accepted lexeme by lexeme.** -/
theorem accepts_of_parse {source : String} {program : Tree} (parsed : parse source = .ok program) :
    ∃ lexemes, Accepts .initial .start source.toList lexemes program :=
  accepts_of_readFrom parsed (Nat.zero_le _)

namespace Accepts

variable {state : State} {place : Position} {chars : List Char} {lexemes : List Lexeme}
  {program : Tree}

/-- The lexemes make up the text. -/
theorem covers (accepts : Accepts state place chars lexemes program) :
    Lexeme.Covers lexemes chars := by
  induction accepts with
  | ending => exact .nil
  | layout found _ _ ih => exact .cons (Lexeme.scan_starts found) ih
  | token found _ _ _ _ ih => exact .cons (Lexeme.scan_starts found) ih

/-- The program is shaped, and its tokens are as they stand in texts. -/
theorem shaped (accepts : Accepts state place chars lexemes program)
    (before : state.Shaped Token.Genuine) : program.Shaped Token.Genuine .program := by
  induction accepts with
  | ending finished =>
    have reply := before.take Reader.ending fun other => absurd rfl other
    rw [finished] at reply
    exact reply
  | layout _ _ _ ih => exact ih before
  | @token _ _ place lexeme _ _ _ found solid inRange taken _ ih =>
    have reply := before.take (lexeme.toToken place) fun _ =>
      (Lexeme.scan_starts found).genuine solid inRange
    rw [taken] at reply
    exact ih reply

end Accepts

end Reader

end Scriptlet
