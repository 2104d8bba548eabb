/-
**What a text is made of.**

* `Lexeme.Starts`: a lexeme starts a text, and goes on as long as its kind lets it. A word of the
  language is written as a name is.
* `Lexeme.Covers`: lexemes, layout among them, that make up a text one after the other.
* `Lexeme.tokensFrom`: the tokens of such lexemes with their places.
* `Token.Genuine`: a token as it stands in a text: a name, an integer of 64 bits in decimal digits,
  a string without a quotation mark, or the one spelling of its kind.

Main statements: what is scanned starts the text (`Lexeme.scan_starts`), lexemes that make up a text
are written as the text is (`Lexeme.Covers.flatMap_written`), and the token of a lexeme that is no
layout and is in the range of the reader is genuine (`Lexeme.Starts.genuine`).
-/
import Scriptlet.Proofs.Token.Scanning

namespace Scriptlet

/-! ### Lexemes -/

/-- A lexeme starts a text, as long as its kind lets it go on. -/
def Lexeme.Starts (lexeme : Lexeme) (chars : List Char) : Prop :=
  ∃ kind ∈ Kind.trialOrder, kind.extent chars ≠ 0 ∧
    lexeme.written = chars.take (kind.extent chars) ∧
    (lexeme.kind = kind ∨
      kind = .identifier ∧ Kind.ofWord? (String.ofList lexeme.written) = some lexeme.kind)

/-- Lexemes make up a text one after the other. -/
inductive Lexeme.Covers : List Lexeme → List Char → Prop
  | nil : Covers [] []
  | cons {lexeme : Lexeme} {rest : List Lexeme} {chars : List Char} :
      lexeme.Starts (lexeme.written ++ chars) → Covers rest chars →
      Covers (lexeme :: rest) (lexeme.written ++ chars)

/-- Lexemes that make up a text are written as the text is. -/
theorem Lexeme.Covers.flatMap_written {lexemes : List Lexeme} {chars : List Char}
    (covers : Covers lexemes chars) : lexemes.flatMap written = chars := by
  induction covers with
  | nil => rfl
  | cons _ _ ih => rw [List.flatMap_cons, ih]

/-- The place after characters. -/
def Position.afterAll (place : Position) (chars : List Char) : Position :=
  chars.foldl Position.after place

/-- The tokens of lexemes that follow one another from a place on. -/
def Lexeme.tokensFrom (place : Position) : List Lexeme → List Token
  | [] => []
  | lexeme :: rest => lexeme.toToken place :: tokensFrom (place.afterAll lexeme.written) rest

/-- A written name keeps its kind, or has that of the word it spells. -/
theorem Lexeme.settle_spec (looksFor : Kind → Bool) (kind : Kind) (written : List Char) :
    settle looksFor kind written = kind ∨ kind = .identifier ∧
      Kind.ofWord? (String.ofList written) = some (settle looksFor kind written) := by
  unfold settle
  split
  next name =>
    split
    next word found =>
      split
      · exact Or.inr ⟨name, found⟩
      · exact Or.inl name.symm
    · exact Or.inl name.symm
  · exact Or.inl rfl

/-- **What is scanned starts the text.** -/
theorem Lexeme.scan_starts {looksFor : Kind → Bool} {chars : List Char} {lexeme : Lexeme}
    (found : scan looksFor chars = some lexeme) : lexeme.Starts chars := by
  obtain ⟨kind, tried, read⟩ := List.exists_of_findSome?_eq_some found
  split at read
  · dsimp only at read
    split at read
    · cases read
    next some_ =>
      cases read
      exact ⟨kind, tried, some_, rfl, settle_spec looksFor kind _⟩
  · cases read

/-- A lexeme that is no word of the language goes as far as its kind does. -/
theorem Lexeme.Starts.of_kind {lexeme : Lexeme} {chars : List Char} (starts : lexeme.Starts chars)
    (noWord : lexeme.kind.isWord = false) :
    lexeme.kind.extent chars ≠ 0 ∧ lexeme.written = chars.take (lexeme.kind.extent chars) := by
  obtain ⟨kind, -, some_, written, rfl | ⟨-, word⟩⟩ := starts
  · exact ⟨some_, written⟩
  · have isWord := List.contains_iff_mem.mpr (List.mem_of_find?_eq_some word)
    cases noWord.symm.trans isWord

/-! ### Tokens -/

/-- A token as it stands in a text. -/
def Token.Genuine (token : Token) : Prop :=
  match token.kind with
  | .identifier => IsNameText token.text.toList
  | .integer => IsNumberText token.text.toList
  | .string => Text.doubleMark ∉ token.text.toList
  | kind => kind.spelling? = some token.text

namespace Kind

variable {kind : Kind} {chars : List Char}

/-- A mark matches what it starts. -/
theorem extent_of_spelling? {spelling : String} (spelled : kind.spelling? = some spelling)
    (chars : List Char) :
    kind.extent chars =
      if spelling.toList.isPrefixOf chars then spelling.toList.length else 0 := by
  cases kind with
  | identifier | integer | string | blanks | comment | ending | other => cases spelled
  | _ => cases spelled; rfl

/-- A kind with one spelling matches this and nothing else. -/
theorem take_extent_of_spelling? {spelling : String} (spelled : kind.spelling? = some spelling)
    (some_ : kind.extent chars ≠ 0) : chars.take (kind.extent chars) = spelling.toList := by
  rw [extent_of_spelling? spelled] at some_ ⊢
  split at some_
  next leads =>
    rw [if_pos leads]
    exact (List.prefix_iff_eq_take.mp (List.isPrefixOf_iff_prefix.mp leads)).symm
  · exact absurd rfl some_

/-- What is taken for a name is one. -/
theorem isNameText_take_extent (some_ : identifier.extent chars ≠ 0) :
    IsNameText (chars.take (identifier.extent chars)) := by
  simp only [extent] at some_ ⊢
  split at some_
  next first rest =>
    split at some_
    next start =>
      simp only [if_pos start, List.take_succ_cons]
      refine ⟨start, fun c member => ?_⟩
      rw [List.prefix_iff_eq_take.mp (List.takeWhile_prefix isNamePart) |>.symm] at member
      exact List.mem_takeWhile_imp member
    · exact absurd rfl some_
  · exact absurd rfl some_

/-- What is taken for an integer is written in digits. -/
theorem isDigit_of_mem_take_extent :
    ∀ c ∈ chars.take (integer.extent chars), c.isDigit = true := by
  intro c member
  rw [extent, List.prefix_iff_eq_take.mp (List.takeWhile_prefix Char.isDigit) |>.symm] at member
  exact List.mem_takeWhile_imp member

/-- What is taken for a string stands between two marks and has none itself. -/
theorem exists_take_extent_string (some_ : string.extent chars ≠ 0) :
    ∃ inner, Text.doubleMark ∉ inner ∧
      chars.take (string.extent chars) = Text.doubleMark :: (inner ++ [Text.doubleMark]) := by
  simp only [extent] at some_ ⊢
  split at some_
  next first rest =>
    split at some_
    next mark =>
      subst mark
      split at some_
      next last after dropped =>
        refine ⟨rest.takeWhile (· != Text.doubleMark), fun member => ?_, ?_⟩
        · simpa using List.mem_takeWhile_imp member
        · have parts := List.takeWhile_append_dropWhile (p := (· != Text.doubleMark)) (l := rest)
          have closing : last = Text.doubleMark := by
            have head := List.head_dropWhile_not (p := (· != Text.doubleMark)) (l := rest)
              (by simp [dropped])
            simpa [dropped] using head
          rw [dropped, closing] at parts
          have taken : rest.take ((rest.takeWhile (· != Text.doubleMark)).length + 1) =
              rest.takeWhile (· != Text.doubleMark) ++ [Text.doubleMark] := by
            calc rest.take ((rest.takeWhile (· != Text.doubleMark)).length + 1)
                = (rest.takeWhile (· != Text.doubleMark) ++ Text.doubleMark :: after).take
                    ((rest.takeWhile (· != Text.doubleMark)).length + 1) := by rw [parts]
              _ = _ := List.take_length_add_append 1
          simp [taken]
      · exact absurd rfl some_
    · exact absurd rfl some_
  · exact absurd rfl some_

end Kind

/-- An integer in range that is written in digits is of 64 bits, in no more digits than can be
read. -/
theorem Token.InRange.isNumberText {token : Token} (inRange : token.InRange)
    (integer : token.kind = .integer) (some_ : 0 < token.text.toList.length)
    (each : ∀ c ∈ token.text.toList, c.isDigit = true) : IsNumberText token.text.toList := by
  obtain ⟨number, read, fits⟩ := inRange.read integer
  rw [Number.read_of_digits some_ each] at read
  split at read
  · cases read
  next few =>
    cases read
    exact ⟨some_, Nat.not_lt.mp few, each, fits⟩

/-- **The token of a lexeme is genuine**, if it is no layout and in the range of the reader. -/
theorem Lexeme.Starts.genuine {lexeme : Lexeme} {chars : List Char} (starts : lexeme.Starts chars)
    (solid : lexeme.kind.isLayout = false) {place : Position}
    (inRange : (lexeme.toToken place).InRange) : (lexeme.toToken place).Genuine := by
  obtain ⟨kind, tried, some_, written, settled⟩ := starts
  obtain ⟨actual, spelling⟩ := lexeme
  simp only at written solid settled
  subst written
  rcases settled with rfl | ⟨rfl, word⟩
  · -- the kind that was tried is the kind of the token
    cases actual with
    | identifier => simpa [Token.Genuine, toToken, text] using Kind.isNameText_take_extent some_
    | integer =>
      refine inRange.isNumberText rfl ?_ ?_
      · simpa [toToken, text, Nat.pos_iff_ne_zero] using
          ⟨some_, fun empty => some_ (by simp [empty, Kind.extent])⟩
      · simpa [toToken, text] using @Kind.isDigit_of_mem_take_extent chars
    | string =>
      obtain ⟨inner, unmarked, parts⟩ := Kind.exists_take_extent_string some_
      simpa [Token.Genuine, toToken, text, parts] using unmarked
    | blanks | comment => cases solid
    | ending | other => simp [Kind.trialOrder] at tried
    | _ =>
      have taken := Kind.take_extent_of_spelling? rfl some_
      simp [Token.Genuine, toToken, text, taken, Kind.spelling?]
  · -- a word of the language was read as a name is
    have isWord := List.mem_of_find?_eq_some word
    have spelled := List.find?_some word
    simp only [Kind.words, List.mem_cons, List.not_mem_nil, or_false] at isWord
    rcases isWord with rfl | rfl | rfl | rfl | rfl | rfl | rfl
    all_goals simpa [Token.Genuine, toToken, text] using spelled

end Scriptlet
