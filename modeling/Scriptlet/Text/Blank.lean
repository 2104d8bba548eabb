/-
**Blank characters, and texts without them at their ends.**

* `isBlank`: the characters that separate words and are trimmed away.
* `trim`: a text without the blanks at its ends.
* `firstWord`: a text cut after its first word, the blanks between dropped.

`isBlank_of_isWhitespace` says that the class holds every character the core library calls white
space.
-/

namespace Scriptlet.Text

/-- The characters that separate words. -/
def isBlank (c : Char) : Bool :=
  let code := c.toNat
  (9 ≤ code && code ≤ 13) || (28 ≤ code && code ≤ 32) || code == 0x85 || code == 0xA0 ||
    code == 0x1680 || (0x2000 ≤ code && code ≤ 0x200A) || code == 0x2028 || code == 0x2029 ||
    code == 0x202F || code == 0x205F || code == 0x3000

/-- White space in the sense of the core library is blank. -/
theorem isBlank_of_isWhitespace {c : Char} (white : c.isWhitespace = true) : isBlank c = true := by
  simp only [Char.isWhitespace, Bool.or_eq_true, decide_eq_true_eq] at white
  rcases white with ((white | white) | white) | white <;> subst white <;> decide

/-- Characters without the ones of a class at either end. -/
def trimChars (drops : Char → Bool) (chars : List Char) : List Char :=
  ((chars.dropWhile drops).reverse.dropWhile drops).reverse

/-- A text without the blanks at its ends. -/
def trim (text : String) : String :=
  String.ofList (trimChars isBlank text.toList)

/-- A text with no character but blanks. -/
def isAllBlank (text : String) : Bool :=
  text.toList.all isBlank

/-- The first word of a text that starts with one, and what follows the blanks after it. -/
def firstWord (text : String) : String × String :=
  let chars := text.toList
  (String.ofList (chars.takeWhile (!isBlank ·)),
    String.ofList ((chars.dropWhile (!isBlank ·)).dropWhile isBlank))

end Scriptlet.Text
