/-
**Quoted text.**

* `quote`: a text between quotation marks, on one line, with visible characters only. Single marks
  are used unless the text holds a single mark and no double one. The mark used, the backslash and
  the unprintable characters are written as escapes.
* `escape`: how one character is written between a given kind of mark.

`escape_of_plain`: a printable character other than the mark and the backslash stands for itself.
-/
import Scriptlet.Text.Printable

namespace Scriptlet.Text

/-- The single quotation mark. -/
def singleMark : Char := '\x27'

/-- The double quotation mark. -/
def doubleMark : Char := '\x22'

/-- The digits of a number to base sixteen, at least as many as asked for. -/
def hexadecimal (width code : Nat) : List Char :=
  let digits := Nat.toDigits 16 code
  List.replicate (width - digits.length) '0' ++ digits

/-- How a character is written between marks of one kind. -/
def escape (mark c : Char) : List Char :=
  if c = mark ∨ c = '\\' then ['\\', c]
  else if c = '\n' then ['\\', 'n']
  else if c = '\r' then ['\\', 'r']
  else if c = '\t' then ['\\', 't']
  else if isPrintable c then [c]
  else if c.toNat < 0x100 then '\\' :: 'x' :: hexadecimal 2 c.toNat
  else if c.toNat < 0x10000 then '\\' :: 'u' :: hexadecimal 4 c.toNat
  else '\\' :: 'U' :: hexadecimal 8 c.toNat

/-- The mark a text is quoted with. -/
def quotationMark (chars : List Char) : Char :=
  if chars.contains singleMark && !chars.contains doubleMark then doubleMark else singleMark

/-- A text between quotation marks, with escapes. -/
def quote (text : String) : String :=
  let chars := text.toList
  let mark := quotationMark chars
  String.ofList (mark :: chars.flatMap (escape mark) ++ [mark])

/-- A printable character stands for itself. -/
theorem escape_of_plain {mark c : Char} (visible : isPrintable c = true) (other : c ≠ mark)
    (plain : c ≠ '\\') : escape mark c = [c] := by
  have line : c ≠ '\n' := by rintro rfl; simp [isPrintable] at visible
  have carriage : c ≠ '\r' := by rintro rfl; simp [isPrintable] at visible
  have tab : c ≠ '\t' := by rintro rfl; simp [isPrintable] at visible
  simp [escape, other, plain, line, carriage, tab, visible]

end Scriptlet.Text
