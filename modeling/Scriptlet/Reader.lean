/-
**Texts read as programs.**

* `parse`: the tree of a program, or why the text is none.
* `Reader.readFrom`: the reading of what is left of a text. At each place where no lexeme is being
  passed over, a lexeme is looked for among the kinds that the reader awaits; layout is passed
  over, and any other lexeme is taken as a token.
* `Reader.rangeFault?`: an integer is checked when it is found, before the reader takes it.

Where nothing awaited is found, any other lexeme at that place is what is unexpected, and without
one it is the character.
-/
import Scriptlet.Reader.Rejection
import Scriptlet.Reader.Step
import Scriptlet.Number.Word
import Scriptlet.Token.Lexeme

namespace Scriptlet

namespace Reader

/-- Why an integer cannot be taken. -/
def rangeFault? (token : Token) : Option Rejection :=
  if token.kind = .integer then
    match Number.read token.text with
    | .ok value => if Number.greatest < value then some (.outOfRange token) else none
    | .error reason => some (.misread reason)
  else none

/-- Why a text is no program where nothing awaited starts the rest of it. -/
def mismatch (state : State) (place : Position) (c : Char) (rest : List Char) : Rejection :=
  match Lexeme.scanAny (c :: rest) with
  | some lexeme =>
    let token := lexeme.toToken place
    (rangeFault? token).getD (.unexpectedToken token state.sought)
  | none => .unexpectedCharacter c place

/-- The token of a lexeme taken by the reader. -/
def takeToken (state : State) (token : Token) : Except Rejection State :=
  match rangeFault? token with
  | some fault => .error fault
  | none =>
    match state.take token with
    | .next state => .ok state
    | .finished _ => .error (.unexpectedToken token [])
    | .refused expected => .error (.unexpectedToken token expected)

/-- The end of a text taken by the reader. -/
def takeEnd (state : State) (last : Option Token) : Except Rejection Tree :=
  match state.take ⟨.ending, "", default, 0⟩ with
  | .finished program => .ok program
  | .refused expected => .error (.unexpectedEnd last expected)
  | .next _ => .error (.unexpectedEnd last [])

/-- The program that the rest of a text completes: `last` is the last token taken, and `passing`
counts the characters of its lexeme that are still to pass. -/
def readFrom (state : State) (last : Option Token) (place : Position) (passing : Nat) :
    List Char → Except Rejection Tree
  | [] => takeEnd state last
  | c :: rest =>
    match passing with
    | passing + 1 => readFrom state last (place.after c) passing rest
    | 0 =>
      match Lexeme.scan state.awaited.contains (c :: rest) with
      | none => .error (mismatch state place c rest)
      | some lexeme =>
        let passing := lexeme.written.length - 1
        if lexeme.kind.isLayout then readFrom state last (place.after c) passing rest
        else
          let token := lexeme.toToken place
          match takeToken state token with
          | .ok state => readFrom state (some token) (place.after c) passing rest
          | .error rejection => .error rejection

end Reader

/-- The tree of a program. -/
def parse (source : String) : Except Rejection Tree :=
  Reader.readFrom .initial none .start 0 source.toList

end Scriptlet
