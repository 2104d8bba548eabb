/-
**Highlighted lines.**

* `Highlight.line`: the parts of a line with their styles. Every lexeme, layout too, is one part;
  from the first place where none starts, or an integer is beyond 64 bits, the rest of the line is
  one part in the style of errors.
* `Highlight.style`: the style of a lexeme.
-/
import Scriptlet.Reader
import Scriptlet.Value

namespace Scriptlet.Highlight

/-- What is told apart by colour. -/
inductive Group where
  | keyword
  | boolean
  | number
  | string
  | builtin
  | comment
  | error
  /-- Names, operators, punctuation and blanks. -/
  | plain
  deriving DecidableEq, Repr

/-- The style of a group. -/
def Group.style : Group → String
  | keyword => "bold ansicyan"
  | boolean => "ansicyan"
  | number => "ansimagenta"
  | string => "ansigreen"
  | builtin => "bold ansiyellow"
  | comment => "italic ansigray"
  | error => "bold ansired"
  | plain => ""

/-- The group of a lexeme. -/
def group (lexeme : Lexeme) : Group :=
  match lexeme.kind with
  | .letWord | .fnWord | .ifWord | .elseWord | .returnWord => .keyword
  | .trueWord | .falseWord => .boolean
  | .integer => .number
  | .string => .string
  | .comment => .comment
  | .identifier => if (Builtin.ofName? lexeme.text).isSome then .builtin else .plain
  | _ => .plain

/-- A part of a line, with its group. -/
structure Part where
  group : Group
  text : String
  deriving DecidableEq, Repr

/-- The parts of what is left of a line; `passing` counts the characters of the last lexeme that are
still to pass. -/
def partsFrom (passing : Nat) : List Char → Except Number.Misread (List Part)
  | [] => .ok []
  | c :: rest =>
    match passing with
    | passing + 1 => partsFrom passing rest
    | 0 =>
      let left : Part := ⟨.error, String.ofList (c :: rest)⟩
      match Lexeme.scanAny (c :: rest) with
      | none => .ok [left]
      | some lexeme =>
        match Reader.rangeFault? (lexeme.toToken default) with
        | some (.misread reason) => .error reason
        | some _ => .ok [left]
        | none => do
          let parts ← partsFrom (lexeme.written.length - 1) rest
          return ⟨group lexeme, String.ofList lexeme.written⟩ :: parts

/-- The parts of a line. A number with too many digits to be read makes the line fail. -/
def line (text : String) : Except Number.Misread (List Part) :=
  partsFrom 0 text.toList

end Scriptlet.Highlight
