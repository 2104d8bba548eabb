/-
**Numbers with too many digits.**

A text is refused without a report for one reason only: a run of its digits is longer than
`Number.digitLimit`.

* `Text.HasDigits`: so many digits stand in a row in a text.

Main statements: a text that is refused so has such a run (`misread_of_parse`), and a text of digits
alone is refused so if it has too many (`parse_of_digits`).
-/
import Scriptlet.Proofs.Reader.FirstWrong

namespace Scriptlet

/-- So many digits stand in a row. -/
def Text.HasDigits (text : String) (count : Nat) : Prop :=
  ∃ run, run <:+: text.toList ∧ (∀ c ∈ run, c.isDigit = true) ∧ run.length = count

/-- A text has no more digits in a row than characters. -/
theorem Text.HasDigits.le_length {text : String} {count : Nat} (has : HasDigits text count) :
    count ≤ text.toList.length := by
  obtain ⟨run, within, -, rfl⟩ := has
  exact within.length_le

/-- A cause has no report if it is a number that cannot be read. -/
theorem Rejection.report?_eq_none {rejection : Rejection} :
    rejection.report? = none ↔ ∃ reason, rejection = .misread reason := by
  cases rejection <;> simp [report?]

/-- The lexeme of an integer is written in digits, and is read as the number that they write, unless
there are too many of them. -/
theorem Lexeme.Starts.read {lexeme : Lexeme} {chars : List Char} (starts : lexeme.Starts chars)
    (integer : lexeme.kind = .integer) (place : Position) :
    (∀ c ∈ lexeme.written, c.isDigit = true) ∧
      Number.read (lexeme.toToken place).text =
        if Number.digitLimit < lexeme.written.length then .error (.tooLong lexeme.written.length)
        else .ok (Number.value lexeme.written) := by
  obtain ⟨some_, written⟩ := starts.of_kind (by rw [integer]; rfl)
  rw [integer] at some_ written
  have digits : ∀ c ∈ lexeme.written, c.isDigit = true := by
    rw [written]
    exact Kind.isDigit_of_mem_take_extent
  have positive : 0 < lexeme.written.length := by
    rw [written, List.length_take, Nat.min_eq_left (Kind.extent_le _ _)]
    exact Nat.pos_of_ne_zero some_
  have text : (lexeme.toToken place).text.toList = lexeme.written := by
    simp [toToken, Lexeme.text, integer]
  have read := @Number.read_of_digits (lexeme.toToken place).text (by rwa [text]) (by rwa [text])
  rw [text] at read
  exact ⟨digits, read⟩

/-- An integer that cannot be read has too many digits. -/
theorem Lexeme.Starts.misread {lexeme : Lexeme} {chars : List Char} (starts : lexeme.Starts chars)
    {place : Position} {reason : Number.Misread}
    (fault : Reader.rangeFault? (lexeme.toToken place) = some (.misread reason)) :
    (∀ c ∈ lexeme.written, c.isDigit = true) ∧ Number.digitLimit < lexeme.written.length ∧
      reason = .tooLong lexeme.written.length := by
  unfold Reader.rangeFault? at fault
  split at fault
  next integer =>
    obtain ⟨digits, read⟩ := starts.read integer place
    rw [read] at fault
    split at fault
    next stored =>
      split at fault <;> cases fault
    next misread =>
      cases fault
      split at misread
      next many =>
        cases misread
        exact ⟨digits, many, rfl⟩
      · cases misread
  · cases fault

/-- **A text is refused for its digits** only if too many of them stand in a row. -/
theorem misread_of_parse {source : String} {reason : Number.Misread}
    (refused : parse source = .error (.misread reason)) :
    ∃ digits, Text.HasDigits source digits ∧ Number.digitLimit < digits ∧
      reason = .tooLong digits := by
  obtain ⟨read, rest, after, text, -, stops⟩ := Reader.advances_of_parse source
  -- the lexeme that is to blame starts the rest of the text
  suffices blamed : ∃ (lexeme : Lexeme) (place : Position), lexeme.Starts rest ∧
      lexeme.written <+: rest ∧
        Reader.rangeFault? (lexeme.toToken place) = some (.misread reason) by
    obtain ⟨lexeme, place, starts, leads, fault⟩ := blamed
    obtain ⟨digits, many, reason⟩ := starts.misread fault
    refine ⟨_, ⟨lexeme.written, ?_, digits, rfl⟩, many, reason⟩
    rw [text]
    exact leads.isInfix.trans (List.suffix_append read rest).isInfix
  generalize outcome : parse source = result at refused stops
  cases stops with
  | ending =>
    obtain ⟨expected, other⟩ := Reader.takeEnd_eq_error refused
    cases other
  | refused found _ refusal =>
    cases refused
    refine ⟨_, after.place, Lexeme.scan_starts found, (Lexeme.scan_written found).1, ?_⟩
    unfold Reader.takeToken at refusal
    split at refusal
    next fault =>
      cases refusal
      exact fault
    · split at refusal <;> cases refusal
  | @mismatch c behind =>
    cases any : Lexeme.scanAny (c :: behind) with
    | none => simp [Reader.mismatch, any] at refused
    | some lexeme =>
      refine ⟨lexeme, after.place, Lexeme.scan_starts any, (Lexeme.scan_written any).1, ?_⟩
      simp only [Reader.mismatch, any, Except.error.injEq] at refused
      cases fault : Reader.rangeFault? (lexeme.toToken after.place) with
      | none => simp [fault] at refused
      | some other =>
        rw [fault, Option.getD_some] at refused
        rw [refused]

/-- A text of digits alone is refused if it has too many. -/
theorem parse_of_digits {digits : List Char} (each : ∀ c ∈ digits, c.isDigit = true)
    (many : Number.digitLimit < digits.length) :
    parse (String.ofList digits) = .error (.misread (.tooLong digits.length)) := by
  have positive : 0 < digits.length := Nat.zero_lt_of_lt many
  have found : Lexeme.scan Reader.State.initial.awaited.contains (digits ++ []) =
      some ⟨.integer, digits⟩ :=
    Lexeme.scan_integer (List.length_pos_iff.mp positive) each .nil (by decide)
  have fault : Reader.rangeFault? (Lexeme.toToken ⟨.integer, digits⟩ .start) =
      some (.misread (.tooLong digits.length)) := by
    have read := @Number.read_of_digits (String.ofList digits) (by simpa) (by simpa)
    rw [String.toList_ofList, if_pos many] at read
    simp [Reader.rangeFault?, Lexeme.toToken, Lexeme.text, read]
  have refused := @Reader.Stage.read_token .initial ⟨.integer, digits⟩ [] found rfl
  have taken : Reader.takeToken Reader.Stage.initial.state
      (Lexeme.toToken ⟨.integer, digits⟩ Reader.Stage.initial.place) =
        .error (.misread (.tooLong digits.length)) := by
    have start : Reader.Stage.initial.place = .start := rfl
    rw [Reader.takeToken, start, fault]
  rw [taken, List.append_nil] at refused
  rw [parse, String.toList_ofList]
  exact refused

end Scriptlet
