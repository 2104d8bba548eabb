/-
**Accepted lines are highlighted token by token.**

What the reader finds depends on what it awaits, while a highlighted line is cut where any lexeme
ends. Two readings could part at `=` and `!` only, where another `=` follows; but the reader takes
neither there (`Reader.Accepts.not_joinable`).

* `Highlight.Part.Shows`: a part is written as a lexeme, with no error, and is layout if that is.

Main statements: the parts of an accepted text show its lexemes one by one
(`Highlight.partsFrom_of_accepts`), and so the parts of a program that are no layout are its tokens
(`highlighted_as_read`).
-/
import Scriptlet.Proofs.Reader.Lexemes
import Scriptlet.Session.Highlight
import Mathlib.Data.List.Forall2

namespace Scriptlet

/-! ### Lexemes that are cut alike -/

/-- A word of the language is no layout and no integer. -/
theorem Kind.of_ofWord? {text : String} {kind : Kind} (word : ofWord? text = some kind) :
    kind.isLayout = false ∧ kind ≠ .integer := by
  have known : ∀ kind ∈ words, kind.isLayout = false ∧ kind ≠ .integer := by decide
  exact known kind (List.mem_of_find?_eq_some word)

namespace Lexeme.SameCut

variable {first second : Lexeme} (same : first.SameCut second)

include same

/-- Lexemes that are cut alike are both layout, or neither. -/
theorem isLayout : first.kind.isLayout = second.kind.isLayout := by
  rcases same.kind with kind | ⟨name, word⟩
  · rw [kind]
  · rw [name, (Kind.of_ofWord? word).1]
    rfl

/-- Where one of them is in range, the other is. -/
theorem inRange {place place' : Position} (fits : (second.toToken place).InRange) :
    (first.toToken place').InRange := by
  rcases same.kind with kind | ⟨-, word⟩
  · refine Token.InRange.of_unplaced fits ?_
    simp [Token.unplaced, toToken, Lexeme.text, kind, same.written]
  · exact if_neg (Kind.of_ofWord? word).2

end Lexeme.SameCut

namespace Highlight

/-! ### Parts -/

namespace Part

/-- The part that a lexeme makes. -/
def ofLexeme (lexeme : Lexeme) : Part :=
  ⟨Highlight.group lexeme, String.ofList lexeme.written⟩

/-- A part that is a comment, or consists of spacing. -/
def isLayout (part : Part) : Bool :=
  part.group == .comment || part.text.toList.all isSpacing

/-- A part shows a lexeme: as it is written, with no error, and as layout if it is. -/
structure Shows (part : Part) (lexeme : Lexeme) : Prop where
  text : part.text = String.ofList lexeme.written
  sound : part.group.style ≠ Group.error.style
  layout : part.isLayout = lexeme.kind.isLayout

/-- No lexeme is shown in the style of errors. -/
theorem style_ne_error (lexeme : Lexeme) :
    (Highlight.group lexeme).style ≠ Group.error.style := by
  have own : ∀ group : Group, group ≠ .error → group.style ≠ Group.error.style := by
    intro group
    cases group <;> decide
  refine own _ ?_
  unfold Highlight.group
  split
  case h_11 => split <;> simp
  all_goals simp

/-- A comment is shown as one, and nothing else is. -/
theorem group_eq_comment {lexeme : Lexeme} :
    Highlight.group lexeme = .comment ↔ lexeme.kind = .comment := by
  unfold Highlight.group
  split <;> simp_all
  split <;> simp

/-- The part of a lexeme is layout if the lexeme is. -/
theorem isLayout_ofLexeme {lexeme : Lexeme} {chars : List Char}
    (found : Lexeme.scanAny chars = some lexeme) :
    (ofLexeme lexeme).isLayout = lexeme.kind.isLayout := by
  obtain ⟨⟨rest, text⟩, some_⟩ := Lexeme.scan_written found
  obtain ⟨first, others, written⟩ := List.exists_cons_of_ne_nil some_
  have spacing : lexeme.written.all isSpacing = true ↔ lexeme.kind = .blanks := by
    refine ⟨fun spaces => ?_, fun blanks => ?_⟩
    · have space : isSpacing first = true := by simp_all
      rw [← text, written, List.cons_append] at found
      cases (Lexeme.scan_spacing (fun _ => true) space (others ++ rest)).symm.trans found
      rfl
    · simpa using Lexeme.isSpacing_of_scan found blanks
  rw [Bool.eq_iff_iff]
  simp only [isLayout, ofLexeme, Kind.isLayout, Bool.or_eq_true, beq_iff_eq, group_eq_comment,
    String.toList_ofList, spacing]
  exact Or.comm

/-- A lexeme that is cut off in the same place shows another one. -/
theorem Shows.of_sameCut {shown lexeme : Lexeme} {chars : List Char}
    (found : Lexeme.scanAny chars = some shown) (same : shown.SameCut lexeme) :
    (ofLexeme shown).Shows lexeme where
  text := congrArg String.ofList same.written
  sound := style_ne_error shown
  layout := (isLayout_ofLexeme found).trans same.isLayout

end Part

/-- The characters of a lexeme that has been found are passed. -/
theorem partsFrom_passing (chars rest : List Char) :
    partsFrom chars.length (chars ++ rest) = partsFrom 0 rest := by
  induction chars with
  | nil => rfl
  | cons c chars ih => exact ih

/-- A lexeme in range makes one part. -/
theorem partsFrom_lexeme {lexeme : Lexeme} {rest : List Char} {parts : List Part}
    (found : Lexeme.scanAny (lexeme.written ++ rest) = some lexeme)
    (inRange : (lexeme.toToken default).InRange) (others : partsFrom 0 rest = .ok parts) :
    partsFrom 0 (lexeme.written ++ rest) = .ok (Part.ofLexeme lexeme :: parts) := by
  obtain ⟨first, chars, written⟩ := List.exists_cons_of_ne_nil (Lexeme.scan_written found).2
  have passed : partsFrom (lexeme.written.length - 1) (chars ++ rest) = .ok parts := by
    rw [written, List.length_cons, Nat.add_sub_cancel, partsFrom_passing, others]
  have text : lexeme.written ++ rest = first :: (chars ++ rest) := by rw [written, List.cons_append]
  rw [text] at found ⊢
  unfold Token.InRange at inRange
  simp only [partsFrom, found, inRange, passed]
  rfl

/-- **An accepted text is shown lexeme by lexeme.** -/
theorem partsFrom_of_accepts {state : Reader.State} {place : Position} {chars : List Char}
    {lexemes : List Lexeme} {program : Tree}
    (accepts : Reader.Accepts state place chars lexemes program) :
    ∃ parts, partsFrom 0 chars = .ok parts ∧ List.Forall₂ Part.Shows parts lexemes := by
  induction accepts with
  | ending => exact ⟨[], rfl, .nil⟩
  | @layout state place lexeme chars _ _ found layout _ ih =>
    obtain ⟨parts, others, shows_⟩ := ih
    rcases Lexeme.scanAny_of_scan found with ⟨any, found', same⟩ | ⟨joins, -⟩
    · -- layout is no integer, so it is in range
      have inRange : (any.toToken default).InRange := by
        refine if_neg fun integer => ?_
        have solid := same.isLayout
        rw [layout, (show any.kind = .integer from integer)] at solid
        cases solid
      rw [← same.written] at found' ⊢
      exact ⟨_, partsFrom_lexeme found' inRange others, .cons (.of_sameCut found' same) shows_⟩
    · rcases joins with kind | kind <;> simp [kind, Kind.isLayout] at layout
  | token found solid inRange taken inner ih =>
    obtain ⟨parts, others, shows_⟩ := ih
    rcases Lexeme.scanAny_of_scan found with ⟨any, found', same⟩ | joins
    · rw [← same.written] at found' ⊢
      exact ⟨_, partsFrom_lexeme found' (same.inRange inRange) others,
        .cons (.of_sameCut found' same) shows_⟩
    · -- the reader has taken `=` or `!`, and would have to go on with an equals sign
      exact absurd joins (Reader.Accepts.not_joinable taken inner)

/-- Parts that show lexemes show those that are no layout. -/
theorem map_text_of_shows {parts : List Part} {lexemes : List Lexeme}
    (shows_ : List.Forall₂ Part.Shows parts lexemes) :
    (parts.filter (!·.isLayout)).map Part.text =
      (lexemes.filter (!·.kind.isLayout)).map fun lexeme => String.ofList lexeme.written := by
  induction shows_ with
  | nil => rfl
  | cons first _ ih =>
    rw [List.filter_cons, List.filter_cons, first.layout]
    split
    · rw [List.map_cons, List.map_cons, first.text, ih]
    · exact ih

end Highlight

/-- **A program is shown as it is read.** No part of it is in the style of errors, and its parts
that are no layout are the tokens that the reader takes. -/
theorem highlighted_as_read {source : String} {program : Tree}
    (parsed : parse source = .ok program) :
    ∃ lexemes parts,
      (∀ others, Reader.Accepts .initial .start source.toList others program ↔ others = lexemes) ∧
      Highlight.line source = .ok parts ∧
      (∀ part ∈ parts, part.group.style ≠ Highlight.Group.error.style) ∧
      (parts.filter (!·.isLayout)).map Highlight.Part.text =
        (lexemes.filter (!·.kind.isLayout)).map fun lexeme => String.ofList lexeme.written := by
  obtain ⟨lexemes, accepts⟩ := Reader.accepts_of_parse parsed
  obtain ⟨parts, shown, shows_⟩ := Highlight.partsFrom_of_accepts accepts
  have sound : ∀ part ∈ parts, part.group.style ≠ Highlight.Group.error.style :=
    ((List.forall₂_and_left parts lexemes).mp
      (shows_.imp fun _ _ shows_ => ⟨shows_.sound, shows_⟩)).1
  refine ⟨lexemes, parts, fun others => ⟨fun accepts' => (accepts.unique accepts').1, ?_⟩, shown,
    sound, Highlight.map_text_of_shows shows_⟩
  rintro rfl
  exact accepts

/-- A word that stands for a name is one token for both, and so is `==`, but `= !` is two. -/
theorem highlighted_as_read_word :
    ∃ program, parse "let let = !a == \"b\" // c" = .ok program ∧
      ∃ lexemes, (∀ others, Reader.Accepts .initial .start "let let = !a == \"b\" // c".toList
          others program ↔ others = lexemes) ∧
        (lexemes.filter (!·.kind.isLayout)).map (fun lexeme => String.ofList lexeme.written) =
          ["let", "let", "=", "!", "a", "==", "\"b\""] := by
  have parsed : (parse "let let = !a == \"b\" // c").isOk = true := by decide +kernel
  have cut : (Highlight.line "let let = !a == \"b\" // c").map
      (fun parts => (parts.filter (!·.isLayout)).map Highlight.Part.text) =
      .ok ["let", "let", "=", "!", "a", "==", "\"b\""] := by decide +kernel
  cases read : parse "let let = !a == \"b\" // c" with
  | error rejection => simp [read, Except.isOk, Except.toBool] at parsed
  | ok program =>
    obtain ⟨lexemes, parts, only, shown, -, agree⟩ := highlighted_as_read read
    rw [shown] at cut
    exact ⟨program, rfl, lexemes, only, agree.symm.trans (Except.ok.inj cut)⟩

end Scriptlet
