/-
**Trees printed with the fewest parentheses.**

* `Tree.spelled`: the tokens that a program is written in. Every statement ends in a semicolon and
  every block stands in braces; an operand is put in parentheses only where it would be read
  differently without.
* `Tree.printed`: the text of these tokens, with one space between two of them.
* `Token.Plain`: a token as it can be written: a name that is no word of the language, an integer of
  64 bits in decimal digits, a string without a quotation mark, or the one spelling of its kind.

Nothing here is about places: tokens of the text itself have none.
-/
import Scriptlet.Reader

namespace Scriptlet

/-! ### Tokens -/

/-- A word, an operator or a punctuation mark as a token. -/
def Token.mark (kind : Kind) : Token :=
  ⟨kind, kind.spelling?.getD "", default, 0⟩

/-- A token as it is written: a string stands between quotation marks. -/
def Token.written (token : Token) : List Char :=
  if token.kind = .string then Text.doubleMark :: (token.text.toList ++ [Text.doubleMark])
  else token.text.toList

/-- A name: a letter or an underscore, then letters, digits and underscores. -/
def IsNameText : List Char → Prop
  | [] => False
  | first :: rest => isNameStart first = true ∧ ∀ c ∈ rest, isNamePart c = true

instance : DecidablePred IsNameText
  | [] => inferInstanceAs (Decidable False)
  | _ :: rest =>
    -- over the list itself: there are too many characters to go through them all
    have : Decidable (∀ c ∈ rest, isNamePart c = true) := rest.decidableBAll _
    inferInstanceAs (Decidable (_ ∧ _))

/-- A number of 64 bits in decimal digits, not more of them than can be read. -/
def IsNumberText (chars : List Char) : Prop :=
  0 < chars.length ∧ chars.length ≤ Number.digitLimit ∧ (∀ c ∈ chars, c.isDigit = true) ∧
    (Number.value chars : Int) ≤ Number.greatest

instance : DecidablePred IsNumberText := fun chars =>
  have : Decidable (∀ c ∈ chars, c.isDigit = true) := chars.decidableBAll _
  inferInstanceAs (Decidable (_ ∧ _ ∧ _ ∧ _))

/-- A token as it can be written. -/
def Token.Plain (token : Token) : Prop :=
  (token.kind = .identifier ∧ IsNameText token.text.toList ∧ Kind.ofWord? token.text = none) ∨
  (token.kind = .integer ∧ IsNumberText token.text.toList) ∨
  (token.kind = .string ∧ Text.doubleMark ∉ token.text.toList) ∨
  token.kind.spelling? = some token.text

instance : DecidablePred Token.Plain := fun _ => inferInstanceAs (Decidable (_ ∨ _ ∨ _ ∨ _))

/-- Tokens written with one space between two of them. -/
def writtenAll : List Token → List Char
  | [] => []
  | [token] => token.written
  | token :: rest => token.written ++ ' ' :: writtenAll rest

/-! ### Trees -/

namespace Tree

/-- How tightly an expression holds together: a binary one as its operator binds, a unary one
tighter than any of them, and all others tightest. -/
def rank : Tree → Nat
  | .node .binary [_, .leaf operator, _] => Reader.strength operator.kind
  | .node .unary _ => 5
  | _ => 6

/-- The tokens of an operand, in parentheses if it holds together less tightly than is needed. -/
def guarded (least : Nat) (operand : Tree) (tokens : List Token) : List Token :=
  if least ≤ operand.rank then tokens else .mark .openParen :: (tokens ++ [.mark .closeParen])

/-- Each after the first follows a comma. -/
def listed : List (List Token) → List Token
  | [] => []
  | first :: rest => first ++ rest.flatMap fun tokens => .mark .comma :: tokens

mutual

/-- The tokens that a tree is written in. -/
def spelled : Tree → List Token
  | .leaf token => [token]
  | .node .program statements => (spelledAll statements).flatMap (· ++ [.mark .semicolon])
  | .node .block statements =>
    .mark .openBrace ::
      ((spelledAll statements).flatMap (· ++ [.mark .semicolon]) ++ [.mark .closeBrace])
  | .node .letStatement [.leaf name, value] =>
    .mark .letWord :: name :: .mark .assign :: value.spelled
  | .node .returnStatement [value] => .mark .returnWord :: value.spelled
  | .node .expressionStatement [value] => value.spelled
  | .node .integer [.leaf token] | .node .string [.leaf token] | .node .boolean [.leaf token]
  | .node .identifier [.leaf token] => [token]
  | .node .unary [.leaf operator, right] => operator :: guarded 5 right right.spelled
  | .node .binary [left, .leaf operator, right] =>
    guarded (Reader.strength operator.kind) left left.spelled ++
      operator :: guarded (Reader.strength operator.kind + 1) right right.spelled
  | .node .conditional [condition, consequence] =>
    .mark .ifWord :: .mark .openParen ::
      (condition.spelled ++ .mark .closeParen :: consequence.spelled)
  | .node .conditional [condition, consequence, alternative] =>
    .mark .ifWord :: .mark .openParen ::
      (condition.spelled ++ .mark .closeParen ::
        (consequence.spelled ++ .mark .elseWord :: alternative.spelled))
  | .node .function [.node .parameters names, body] =>
    .mark .fnWord :: .mark .openParen ::
      (listed (spelledAll names) ++ .mark .closeParen :: body.spelled)
  | .node .call [callee, .node .arguments arguments] =>
    guarded 6 callee callee.spelled ++
      .mark .openParen :: (listed (spelledAll arguments) ++ [.mark .closeParen])
  | .node .index [container, position] =>
    guarded 6 container container.spelled ++
      .mark .openBracket :: (position.spelled ++ [.mark .closeBracket])
  | .node .array elements =>
    .mark .openBracket :: (listed (spelledAll elements) ++ [.mark .closeBracket])
  | .node .hash pairs => .mark .openBrace :: (listed (spelledAll pairs) ++ [.mark .closeBrace])
  | .node .pair [key, value] => key.spelled ++ .mark .colon :: value.spelled
  | _ => []

/-- The tokens that trees are written in, each by itself. -/
def spelledAll : List Tree → List (List Token)
  | [] => []
  | tree :: rest => tree.spelled :: spelledAll rest

end

/-- Trees are written each by itself. -/
theorem spelledAll_eq_map (trees : List Tree) : spelledAll trees = trees.map spelled := by
  induction trees with
  | nil => rfl
  | cons tree rest ih => simp [spelledAll, ih]

/-- The text that a tree is written as. -/
def printed (tree : Tree) : String :=
  String.ofList (writtenAll tree.spelled)

end Tree

end Scriptlet
