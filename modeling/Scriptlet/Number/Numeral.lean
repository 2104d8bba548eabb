/-
**Integers written in digits.**

* `read`: the integer a numeral stands for. A numeral is a sign, if any, and digits of any script,
  with single underscores between digits, and blanks around; it has at most 4300 digits.
* `Misread`: why a text is no numeral; `Misread.message` says so.

Of two faults the digit limit is found before anything that follows the digits.
-/
import Scriptlet.Text.Blank
import Scriptlet.Text.Digit
import Scriptlet.Text.Quoted

namespace Scriptlet.Number

/-- The most digits a numeral may have. -/
def digitLimit : Nat := 4300

/-- Why a text stands for no integer. -/
inductive Misread where
  /-- The text is not written as a numeral. -/
  | malformed (text : String)
  /-- The numeral has too many digits. -/
  | tooLong (digits : Nat)
  deriving DecidableEq, Repr

/-- What is said of a text that stands for no integer; at most 200 characters of it are shown. -/
def Misread.message : Misread → String
  | .malformed text =>
    "invalid literal for int() with base 10: " ++
      String.ofList ((Text.quote text).toList.take 200)
  | .tooLong digits =>
    "Exceeds the limit (" ++ toString digitLimit ++
      " digits) for integer string conversion: value has " ++ toString digits ++
      " digits; use sys.set_int_max_str_digits() to increase the limit"

/-- The blanks allowed around a numeral: the separators among the controls are not. -/
def isMargin (c : Char) : Bool :=
  Text.isBlank c && !(28 ≤ c.toNat && c.toNat ≤ 31)

/-- A sign at the start, as a factor, and what follows. -/
def sign : List Char → Int × List Char
  | '-' :: rest => (-1, rest)
  | '+' :: rest => (1, rest)
  | chars => (1, chars)

/-- A character that belongs to the digits of a numeral. -/
def isDigitPart (c : Char) : Bool :=
  (Text.digitValue? c).isSome || c == '_'

/-- Underscores stand between digits only, and a digit is there. -/
def wellSpaced : List Char → Bool
  | [] => false
  | '_' :: _ => false
  | [_] => true
  | _ :: '_' :: rest => wellSpaced rest
  | _ :: rest => wellSpaced rest

/-- The number written by the digits among the characters. -/
def value (chars : List Char) : Nat :=
  (chars.filterMap Text.digitValue?).foldl (fun total digit => 10 * total + digit) 0

/-- The integer a numeral stands for. -/
def read (text : String) : Except Misread Int :=
  let (factor, body) := sign (text.toList.dropWhile isMargin)
  let digits := body.takeWhile isDigitPart
  let count := (digits.filterMap Text.digitValue?).length
  if !wellSpaced digits then .error (.malformed text)
  else if digitLimit < count then .error (.tooLong count)
  else if !(body.dropWhile isDigitPart).all isMargin then .error (.malformed text)
  else .ok (factor * value digits)

end Scriptlet.Number
