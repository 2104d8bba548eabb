/-
**Why a text is no program.**

* `Rejection`: the cause, with the place where it shows.
* `Report`: a message with a line and a column, and its text.
* `Rejection.report?`: the report of a cause. A number with too many digits to be read at all is
  reported without a place, as any other such number.
-/
import Scriptlet.Number.Numeral
import Scriptlet.Token

namespace Scriptlet

/-- A message about a text, with a place if there is one. -/
structure Report where
  message : String
  line : Option Int
  column : Option Int
  deriving DecidableEq, Repr

/-- A report as it is shown. -/
def Report.text (report : Report) : String :=
  match report.line with
  | some line =>
    report.message ++ " at line " ++ toString line ++ ", col " ++
      (report.column.elim "None" toString)
  | none => report.message

/-- Why a text is no program. -/
inductive Rejection where
  /-- A token stands where only others may. -/
  | unexpectedToken (token : Token) (expected : List Kind)
  /-- The text ends where only tokens may follow; `last` is the last token read. -/
  | unexpectedEnd (last : Option Token) (expected : List Kind)
  /-- A character starts no token. -/
  | unexpectedCharacter (c : Char) (place : Position)
  /-- An integer is beyond 64 bits. -/
  | outOfRange (token : Token)
  /-- A number has too many digits to be read. -/
  | misread (reason : Number.Misread)
  deriving DecidableEq, Repr

namespace Rejection

/-- The names of kinds, in order. -/
def listed (kinds : List Kind) : String :=
  ", ".intercalate ((kinds.map Kind.name).mergeSort fun first second => first ≤ second)

/-- What is said of something that may not stand where it does. -/
def unexpected (shown : String) (expected : List Kind) : String :=
  "unexpected token " ++ Text.quote shown ++ ", expected one of: " ++ listed expected

/-- The place where the end of a text shows: the last token's, if it has a text. -/
def endPlace : Option Token → Position
  | some last => if last.text = "" then .start else last.place
  | none => .start

/-- A report with a place. -/
def reportAt (message : String) (place : Position) : Report :=
  ⟨message, some place.line, some place.column⟩

/-- The report of a cause. -/
def report? : Rejection → Option Report
  | unexpectedToken token expected =>
    let shown := if token.text = "" then token.kind.name else token.text
    some (reportAt (unexpected shown expected) token.place)
  | unexpectedEnd last expected =>
    some (reportAt (unexpected Kind.ending.name expected) (endPlace last))
  | unexpectedCharacter c place =>
    some (reportAt ("unexpected character " ++ Text.quote (String.singleton c)) place)
  | outOfRange token =>
    some (reportAt ("could not parse " ++ token.text ++ " as integer") token.place)
  | misread _ => none

end Rejection

end Scriptlet
