/-
**Lexemes: the tokens of a text as they are written.**

* `Kind.extent`: how many characters at the start of a text make a lexeme of a given kind.
* `Lexeme.scan`: the lexeme at the start of a text, when only some kinds are looked for. Kinds are
  tried in a fixed order and the first that matches wins. Layout is always looked for. A word of
  the language is looked for as an identifier, and is one where the word itself is not looked for.
* `Lexeme.text`: what a lexeme stands for: for a string, what stands between the marks.

Main statements: `Kind.extent_le`, a lexeme lies within the text, and `Lexeme.scan_written`, what
is scanned starts the text and is not empty.
-/
import Scriptlet.Token
import Scriptlet.Text.Quoted

namespace Scriptlet

/-- A character that can start a name. -/
def isNameStart (c : Char) : Bool :=
  c.isAlpha || c == '_'

/-- A character that can continue a name. -/
def isNamePart (c : Char) : Bool :=
  c.isAlphanum || c == '_'

/-- A character between tokens. -/
def isSpacing (c : Char) : Bool :=
  c == ' ' || c == '\t' || c == '\x0c' || c == '\r' || c == '\n'

namespace Kind

/-- How many characters at the start of a text make a lexeme of a kind; zero if none do. -/
def extent (kind : Kind) (chars : List Char) : Nat :=
  match kind with
  | identifier =>
    match chars with
    | c :: rest => if isNameStart c then (rest.takeWhile isNamePart).length + 1 else 0
    | [] => 0
  | blanks => (chars.takeWhile isSpacing).length
  | comment =>
    match chars with
    | '/' :: '/' :: rest => (rest.takeWhile (· != '\n')).length + 2
    | _ => 0
  | string =>
    match chars with
    | c :: rest =>
      if c = Text.doubleMark then
        match rest.dropWhile (· != Text.doubleMark) with
        | _ :: _ => (rest.takeWhile (· != Text.doubleMark)).length + 2
        | [] => 0
      else 0
    | [] => 0
  | integer => (chars.takeWhile Char.isDigit).length
  | kind =>
    match kind.spelling? with
    | some spelling => if spelling.toList.isPrefixOf chars then spelling.toList.length else 0
    | none => 0

/-- The order in which kinds are tried; a longer operator comes before the shorter one it starts
with. -/
def trialOrder : List Kind :=
  [identifier, blanks, comment, string, integer, equals, differs, less, greater, plus, minus, star,
    slash, bang, openBrace, closeBrace, openParen, closeParen, openBracket, closeBracket, colon,
    comma, semicolon, assign]

/-- Taking characters of a class stays within the text. -/
theorem length_takeWhile_le (keeps : Char → Bool) (chars : List Char) :
    (chars.takeWhile keeps).length ≤ chars.length :=
  (List.takeWhile_prefix keeps).length_le

/-- A lexeme lies within the text. -/
theorem extent_le (kind : Kind) (chars : List Char) : kind.extent chars ≤ chars.length := by
  have fixed : ∀ spelling : String,
      (if spelling.toList.isPrefixOf chars then spelling.toList.length else 0) ≤ chars.length := by
    intro spelling
    split
    · next leads => exact (List.isPrefixOf_iff_prefix.mp leads).length_le
    · exact Nat.zero_le _
  unfold extent
  split
  · split
    · split
      · have := length_takeWhile_le isNamePart
        simp [this]
      · simp
    · simp
  · exact length_takeWhile_le _ _
  · split
    · have := length_takeWhile_le (· != '\n')
      simp [this]
    · simp
  · split
    · split
      · split
        · next first rest _ _ _ _ closing =>
          have counted := congrArg List.length
            (List.takeWhile_append_dropWhile (p := (· != Text.doubleMark)) (l := rest))
          rw [closing] at counted
          simp only [List.length_append, List.length_cons] at counted ⊢
          omega
        · simp
      · simp
    · simp
  · exact length_takeWhile_le _ _
  · split
    · exact fixed _
    · simp

end Kind

/-- A lexeme: a kind and the characters as written. -/
structure Lexeme where
  kind : Kind
  written : List Char
  deriving DecidableEq, Repr

namespace Lexeme

/-- The kind a written word has where only some kinds are looked for. -/
def settle (looksFor : Kind → Bool) (kind : Kind) (written : List Char) : Kind :=
  if kind = .identifier then
    match Kind.ofWord? (String.ofList written) with
    | some word => if looksFor word then word else .identifier
    | none => .identifier
  else kind

/-- The lexeme at the start of a text, where only some kinds and layout are looked for. -/
def scan (looksFor : Kind → Bool) (chars : List Char) : Option Lexeme :=
  Kind.trialOrder.findSome? fun kind =>
    if kind.isLayout || looksFor kind then
      let extent := kind.extent chars
      if extent = 0 then none
      else
        let written := chars.take extent
        some ⟨settle looksFor kind written, written⟩
    else none

/-- The lexeme at the start of a text, where every kind is looked for. -/
def scanAny : List Char → Option Lexeme :=
  scan fun _ => true

/-- What a lexeme stands for. -/
def text (lexeme : Lexeme) : String :=
  if lexeme.kind = .string then String.ofList (lexeme.written.drop 1).dropLast
  else String.ofList lexeme.written

/-- The token of a lexeme at a place. -/
def toToken (lexeme : Lexeme) (place : Position) : Token :=
  ⟨lexeme.kind, lexeme.text, place, place.offset + lexeme.written.length⟩

/-- What is scanned starts the text and is not empty. -/
theorem scan_written {looksFor : Kind → Bool} {chars : List Char} {lexeme : Lexeme}
    (found : scan looksFor chars = some lexeme) :
    lexeme.written <+: chars ∧ lexeme.written ≠ [] := by
  obtain ⟨kind, _, read⟩ := List.exists_of_findSome?_eq_some found
  split at read
  · dsimp only at read
    split at read
    · simp at read
    · next positive =>
      simp only [Option.some.injEq] at read
      subst read
      refine ⟨List.take_prefix _ _, ?_⟩
      have within := Kind.extent_le kind chars
      intro empty
      have none := congrArg List.length empty
      simp only [List.length_take, List.length_nil] at none
      omega
  · simp at read

end Lexeme

end Scriptlet
