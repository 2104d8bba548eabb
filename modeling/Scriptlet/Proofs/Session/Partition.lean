/-
**Every line is highlighted to its end.**

A line is cut into lexemes from its start, layout among them, whatever the reader would make of
them. Where none can be cut off, the rest of the line is one part in the style of errors.

* `Lexeme.Excessive`: an integer beyond 64 bits.
* `Lexeme.Cuts`: lexemes that are cut off a text one after another, and what is left of it.
* `Lexeme.Blocked`: nothing more is cut off: no lexeme starts here, or an excessive one does.
* `Highlight.remainder`: the part that what is left makes.

Main statements: every text is cut up to one place (`Lexeme.exists_cuts`, `Lexeme.Cuts.unique`), and
the parts of a line are its lexemes, each in its own style, and what is left (`line_partitioned`).
-/
import Scriptlet.Proofs.Reader.Misread
import Scriptlet.Proofs.Session.Highlight

namespace Scriptlet

/-- No more digits stand in a row than can be read. -/
def Text.FewDigits (text : String) : Prop :=
  ∀ digits, HasDigits text digits → digits ≤ Number.digitLimit

namespace Lexeme

/-- An integer beyond 64 bits. -/
def Excessive (lexeme : Lexeme) : Prop :=
  lexeme.kind = .integer ∧ Number.greatest < Number.value lexeme.written

instance (lexeme : Lexeme) : Decidable lexeme.Excessive :=
  inferInstanceAs (Decidable (_ ∧ _))

/-- Lexemes of every kind, layout among them, are cut off a text one after another, none of them
excessive; the rest is left. -/
inductive Cuts : List Char → List Lexeme → List Char → Prop
  | nil (chars : List Char) : Cuts chars [] chars
  | cons {lexeme : Lexeme} {chars left : List Char} {rest : List Lexeme} :
      scanAny (lexeme.written ++ chars) = some lexeme → ¬ lexeme.Excessive →
      Cuts chars rest left → Cuts (lexeme.written ++ chars) (lexeme :: rest) left

/-- Nothing is cut off here: no lexeme starts the text, or an excessive one does. -/
def Blocked (chars : List Char) : Prop :=
  ∀ lexeme, scanAny chars = some lexeme → lexeme.Excessive

/-- Nothing is cut off at the end of a text. -/
theorem Blocked.nil : Blocked [] := by
  intro lexeme found
  obtain ⟨starts, some_⟩ := scan_written found
  exact absurd (List.prefix_nil.mp starts) some_

/-- **Every text is cut up** to where it is blocked. -/
theorem exists_cuts (chars : List Char) : ∃ lexemes left, Cuts chars lexemes left ∧ Blocked left := by
  by_cases blocked : Blocked chars
  · exact ⟨[], chars, .nil chars, blocked⟩
  · obtain ⟨lexeme, found, fits⟩ : ∃ lexeme, scanAny chars = some lexeme ∧ ¬ lexeme.Excessive := by
      simpa [Blocked] using blocked
    obtain ⟨⟨rest, rfl⟩, some_⟩ := scan_written found
    have shorter : rest.length < (lexeme.written ++ rest).length := by
      have positive := List.length_pos_iff.mpr some_
      rw [List.length_append]
      omega
    obtain ⟨lexemes, left, cuts, blocked⟩ := exists_cuts rest
    exact ⟨lexeme :: lexemes, left, .cons found fits cuts, blocked⟩
termination_by chars.length

namespace Cuts

variable {chars left : List Char} {lexemes : List Lexeme}

/-- The lexemes are written as the text is, up to what is left. -/
theorem flatMap_written (cuts : Cuts chars lexemes left) :
    lexemes.flatMap written ++ left = chars := by
  induction cuts with
  | nil => rfl
  | cons _ _ _ ih => rw [List.flatMap_cons, List.append_assoc, ih]

/-- Every lexeme is found where it stands. -/
theorem exists_scanAny (cuts : Cuts chars lexemes left) :
    ∀ lexeme ∈ lexemes, ∃ rest, scanAny (lexeme.written ++ rest) = some lexeme := by
  induction cuts with
  | nil => exact List.forall_mem_nil _
  | cons found _ _ ih => exact List.forall_mem_cons.mpr ⟨⟨_, found⟩, ih⟩

/-- A text is cut up to one place only, and in one way. -/
theorem unique {others : List Lexeme} {left' : List Char} (cuts : Cuts chars lexemes left)
    (blocked : Blocked left) (cuts' : Cuts chars others left') (blocked' : Blocked left') :
    others = lexemes ∧ left' = left := by
  induction cuts generalizing others with
  | nil chars =>
    cases cuts' with
    | nil => exact ⟨rfl, rfl⟩
    | cons found fits _ => exact absurd (blocked _ found) fits
  | @cons lexeme chars _ rest found fits _ ih =>
    generalize whole : lexeme.written ++ chars = text at found cuts'
    cases cuts' with
    | nil => exact absurd (blocked' _ found) fits
    | cons found' _ inner =>
      cases found.symm.trans found'
      obtain rfl := List.append_cancel_left whole
      obtain ⟨rfl, rfl⟩ := ih blocked inner
      exact ⟨rfl, rfl⟩

end Cuts

/-- An integer that can be read is refused if it is excessive, and for nothing else. -/
theorem Starts.rangeFault?_eq {lexeme : Lexeme} {chars : List Char} (starts : lexeme.Starts chars)
    (few : lexeme.kind = .integer → lexeme.written.length ≤ Number.digitLimit)
    (place : Position) :
    Reader.rangeFault? (lexeme.toToken place) =
      if lexeme.Excessive then some (.outOfRange (lexeme.toToken place)) else none := by
  by_cases integer : lexeme.kind = .integer
  · have kind : (lexeme.toToken place).kind = .integer := integer
    have read := (starts.read integer place).2
    rw [if_neg (Nat.not_lt.mpr (few integer))] at read
    rw [Reader.rangeFault?, if_pos kind, read]
    simp only [Excessive, integer, true_and]
  · rw [if_neg fun excessive => integer excessive.1]
    exact if_neg integer

end Lexeme

/-- Of few digits in a row, an integer has no more. -/
theorem Lexeme.Starts.length_le {lexeme : Lexeme} {text : String} {before after : List Char}
    (few : Text.FewDigits text)
    (starts : lexeme.Starts (lexeme.written ++ after))
    (within : text.toList = before ++ (lexeme.written ++ after))
    (integer : lexeme.kind = .integer) : lexeme.written.length ≤ Number.digitLimit := by
  refine few _ ⟨lexeme.written, ?_, (starts.read integer .start).1, rfl⟩
  rw [within, ← List.append_assoc]
  exact ⟨before, after, rfl⟩

namespace Highlight

/-- The part that what is left of a line makes; none at its end. -/
def remainder (left : List Char) : List Part :=
  if left = [] then [] else [⟨.error, String.ofList left⟩]

/-- Where nothing is cut off, the rest of the line is one part in the style of errors. -/
theorem partsFrom_of_blocked {text : String} {before left : List Char}
    (few : Text.FewDigits text)
    (within : text.toList = before ++ left) (blocked : Lexeme.Blocked left) :
    partsFrom 0 left = .ok (remainder left) := by
  cases left with
  | nil => rfl
  | cons c rest =>
    cases found : Lexeme.scanAny (c :: rest) with
    | none => simp [partsFrom, found, remainder]
    | some lexeme =>
      obtain ⟨after, parts⟩ := (Lexeme.scan_written found).1
      have starts := Lexeme.scan_starts found
      rw [← parts] at starts within
      have refused := starts.rangeFault?_eq (starts.length_le few within) default
      rw [if_pos (blocked lexeme found)] at refused
      simp [partsFrom, found, refused, remainder]

/-- **The parts of a line are its lexemes**, one by one, and what is left. -/
theorem partsFrom_of_cuts {text : String} {before chars left : List Char} {lexemes : List Lexeme}
    (few : Text.FewDigits text)
    (cuts : Lexeme.Cuts chars lexemes left) (within : text.toList = before ++ chars)
    (blocked : Lexeme.Blocked left) :
    partsFrom 0 chars = .ok (lexemes.map Part.ofLexeme ++ remainder left) := by
  induction cuts generalizing before with
  | nil chars => exact partsFrom_of_blocked few within blocked
  | @cons lexeme chars _ rest found fits _ ih =>
    have starts := Lexeme.scan_starts found
    have inRange := starts.rangeFault?_eq (starts.length_le few within) default
    rw [if_neg fits] at inRange
    rw [← List.append_assoc] at within
    exact partsFrom_lexeme found inRange (ih within blocked)

/-- The part of a lexeme has a text. -/
theorem Part.text_ofLexeme_ne {lexeme : Lexeme} {chars : List Char}
    (found : Lexeme.scanAny chars = some lexeme) : (ofLexeme lexeme).text ≠ "" := by
  intro nothing
  have empty := congrArg String.toList nothing
  exact (Lexeme.scan_written found).2 (by simpa [ofLexeme] using empty)

/-- What is left is in the style of errors, and has a text. -/
theorem of_mem_remainder {left : List Char} {part : Part} (member : part ∈ remainder left) :
    part.group = .error ∧ part.text ≠ "" := by
  unfold remainder at member
  split at member
  · cases member
  next some_ =>
    obtain rfl := List.mem_singleton.mp member
    refine ⟨rfl, fun nothing => some_ ?_⟩
    simpa using congrArg String.toList nothing

/-- The remainder shows what is left. -/
theorem flatMap_remainder (left : List Char) :
    (remainder left).flatMap (fun part => part.text.toList) = left := by
  unfold remainder
  split
  next nothing => exact nothing.symm
  · simp

end Highlight

/-- **Every line is highlighted to its end**, if no more of its digits stand in a row than can be
read. There is one way to cut it into lexemes up to where nothing more is cut off. Its parts are
these lexemes, none in the style of errors, and after them what is left, if anything, in that style;
none of them is empty, and together they are the line. -/
theorem line_partitioned {text : String}
    (few : Text.FewDigits text) :
    ∃ lexemes left,
      (∀ others rest, Lexeme.Cuts text.toList others rest ∧ Lexeme.Blocked rest ↔
        others = lexemes ∧ rest = left) ∧
      ∃ parts, Highlight.line text = .ok parts ∧
        parts = lexemes.map Highlight.Part.ofLexeme ++ Highlight.remainder left ∧
        (∀ part ∈ lexemes.map Highlight.Part.ofLexeme,
          part.group.style ≠ Highlight.Group.error.style) ∧
        (∀ part ∈ parts, part.text ≠ "") ∧
        parts.flatMap (fun part => part.text.toList) = text.toList := by
  obtain ⟨lexemes, left, cuts, blocked⟩ := Lexeme.exists_cuts text.toList
  have shown := Highlight.partsFrom_of_cuts few cuts (List.nil_append _).symm blocked
  refine ⟨lexemes, left, fun others rest => ⟨fun ⟨cuts', blocked'⟩ =>
    cuts.unique blocked cuts' blocked', ?_⟩, _, shown, rfl, ?_, ?_, ?_⟩
  · rintro ⟨rfl, rfl⟩
    exact ⟨cuts, blocked⟩
  · intro part member
    obtain ⟨lexeme, -, rfl⟩ := List.mem_map.mp member
    exact Highlight.Part.style_ne_error lexeme
  · intro part member
    rcases List.mem_append.mp member with own | left
    · obtain ⟨lexeme, among, rfl⟩ := List.mem_map.mp own
      obtain ⟨rest, found⟩ := cuts.exists_scanAny lexeme among
      exact Highlight.Part.text_ofLexeme_ne found
    · exact (Highlight.of_mem_remainder left).2
  · rw [List.flatMap_append, Highlight.flatMap_remainder, List.flatMap_map]
    simpa [Highlight.Part.ofLexeme] using cuts.flatMap_written

/-- A word, a name and a string have their own styles; an integer beyond 64 bits ends the lexemes, and
the string after it is not told apart from it. -/
theorem line_partitioned_excessive :
    let text := "let s = \"a\" + 9223372036854775808 \"b\""
    Text.FewDigits text ∧ ∃ lexemes left,
      Lexeme.Cuts text.toList lexemes left ∧ Lexeme.Blocked left ∧
        lexemes.map Highlight.Part.ofLexeme ++ Highlight.remainder left =
          [⟨.keyword, "let"⟩, ⟨.plain, " "⟩, ⟨.plain, "s"⟩, ⟨.plain, " "⟩, ⟨.plain, "="⟩,
            ⟨.plain, " "⟩, ⟨.string, "\"a\""⟩, ⟨.plain, " "⟩, ⟨.plain, "+"⟩, ⟨.plain, " "⟩,
            ⟨.error, "9223372036854775808 \"b\""⟩] := by
  intro text
  have few : Text.FewDigits text := fun _ has => has.le_length.trans (by decide)
  have shown : Highlight.line text = .ok
      [⟨.keyword, "let"⟩, ⟨.plain, " "⟩, ⟨.plain, "s"⟩, ⟨.plain, " "⟩, ⟨.plain, "="⟩,
        ⟨.plain, " "⟩, ⟨.string, "\"a\""⟩, ⟨.plain, " "⟩, ⟨.plain, "+"⟩, ⟨.plain, " "⟩,
        ⟨.error, "9223372036854775808 \"b\""⟩] := by decide +kernel
  obtain ⟨lexemes, left, only, parts, shown', rfl, -⟩ := line_partitioned few
  obtain ⟨cuts, blocked⟩ := (only lexemes left).mpr ⟨rfl, rfl⟩
  exact ⟨few, lexemes, left, cuts, blocked, Except.ok.inj (shown'.symm.trans shown)⟩

end Scriptlet
