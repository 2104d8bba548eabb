/-
**Tokens.**

* `Kind`: the kinds of token: names, literals, words of the language, operators, punctuation, the
  layout between tokens, and the end of the text.
* `Kind.spelling?`: the one spelling of a word, an operator or a punctuation mark.
* `Position`: a place in a text, by line, column and offset in characters.
* `Token`: a kind, a text and a place.

`Kind.ofName_name`: a kind of the language is found by its name.
-/

namespace Scriptlet

/-- The kinds of token. -/
inductive Kind where
  | identifier
  | integer
  | string
  | trueWord
  | falseWord
  | letWord
  | returnWord
  | fnWord
  | ifWord
  | elseWord
  | equals
  | differs
  | less
  | greater
  | plus
  | minus
  | star
  | slash
  | bang
  | openBrace
  | closeBrace
  | openParen
  | closeParen
  | openBracket
  | closeBracket
  | colon
  | comma
  | semicolon
  | assign
  /-- Spaces, tabs, form feeds and line ends. -/
  | blanks
  | comment
  /-- The end of the text. -/
  | ending
  /-- A kind that no text of the language has. -/
  | other (name : String)
  deriving DecidableEq, Repr, Inhabited

namespace Kind

/-- The kinds of the language. -/
def all : List Kind :=
  [identifier, integer, string, trueWord, falseWord, letWord, returnWord, fnWord, ifWord, elseWord,
    equals, differs, less, greater, plus, minus, star, slash, bang, openBrace, closeBrace,
    openParen, closeParen, openBracket, closeBracket, colon, comma, semicolon, assign, blanks,
    comment, ending]

/-- The name of a kind in messages and trees. -/
def name : Kind → String
  | identifier => "IDENT"
  | integer => "INT"
  | string => "STRING"
  | trueWord => "TRUE"
  | falseWord => "FALSE"
  | letWord => "LET"
  | returnWord => "RETURN"
  | fnWord => "FN"
  | ifWord => "IF"
  | elseWord => "ELSE"
  | equals => "EQ"
  | differs => "NOT_EQ"
  | less => "LT"
  | greater => "GT"
  | plus => "PLUS"
  | minus => "MINUS"
  | star => "STAR"
  | slash => "SLASH"
  | bang => "BANG"
  | openBrace => "LBRACE"
  | closeBrace => "RBRACE"
  | openParen => "LPAR"
  | closeParen => "RPAR"
  | openBracket => "LSQB"
  | closeBracket => "RSQB"
  | colon => "COLON"
  | comma => "COMMA"
  | semicolon => "SEMICOLON"
  | assign => "EQUAL"
  | blanks => "WS"
  | comment => "COMMENT"
  | ending => "$END"
  | other name => name

/-- The kind with a given name. -/
def ofName (name : String) : Kind :=
  (all.find? fun kind => kind.name == name).getD (other name)

/-- A kind of the language is found by its name. -/
theorem ofName_name : ∀ kind ∈ all, ofName kind.name = kind := by
  decide +kernel

/-- The words of the language. -/
def words : List Kind :=
  [trueWord, falseWord, letWord, returnWord, fnWord, ifWord, elseWord]

/-- A word of the language. -/
def isWord (kind : Kind) : Bool :=
  words.contains kind

/-- A kind that stands between tokens and is passed over. -/
def isLayout (kind : Kind) : Bool :=
  kind == blanks || kind == comment

/-- The one spelling of a word, an operator or a punctuation mark. -/
def spelling? : Kind → Option String
  | trueWord => some "true"
  | falseWord => some "false"
  | letWord => some "let"
  | returnWord => some "return"
  | fnWord => some "fn"
  | ifWord => some "if"
  | elseWord => some "else"
  | equals => some "=="
  | differs => some "!="
  | less => some "<"
  | greater => some ">"
  | plus => some "+"
  | minus => some "-"
  | star => some "*"
  | slash => some "/"
  | bang => some "!"
  | openBrace => some "\x7b"
  | closeBrace => some "\x7d"
  | openParen => some "("
  | closeParen => some ")"
  | openBracket => some "["
  | closeBracket => some "]"
  | colon => some ":"
  | comma => some ","
  | semicolon => some ";"
  | assign => some "="
  | _ => none

/-- The word of the language with a given spelling. -/
def ofWord? (text : String) : Option Kind :=
  words.find? fun kind => kind.spelling? == some text

end Kind

/-- A place in a text: line and column from one, offset from zero, all in characters. -/
structure Position where
  line : Nat
  column : Nat
  offset : Nat
  deriving DecidableEq, Repr, Inhabited

namespace Position

/-- The start of a text. -/
def start : Position := ⟨1, 1, 0⟩

/-- The place after a character; only a line feed ends a line. -/
def after (place : Position) (c : Char) : Position :=
  if c = '\n' then ⟨place.line + 1, 1, place.offset + 1⟩
  else ⟨place.line, place.column + 1, place.offset + 1⟩

end Position

/-- A token. The text of a string is what stands between its quotation marks; the places are those
of the token as written, and the default one marks a token that was not read from a text. -/
structure Token where
  kind : Kind
  text : String
  place : Position := default
  stop : Nat := 0
  deriving DecidableEq, Repr, Inhabited

/-- A token without its place. -/
def Token.unplaced (token : Token) : Token :=
  ⟨token.kind, token.text, default, 0⟩

end Scriptlet
