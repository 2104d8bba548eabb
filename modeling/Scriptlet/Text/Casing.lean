/-
**Letters compared without regard to case.**

* `upper`, `lower`: a text in capitals, in small letters, as far as a letter of the basic Latin
  alphabet comes out. Any other character stays as it is, which is enough to compare a text with
  words of basic Latin letters.
-/

namespace Scriptlet.Text

/-- The capitals of a character: the dotless and the long letter and the joined letters count,
since their capitals are basic Latin letters. -/
def capitals (c : Char) : List Char :=
  match c with
  | 'ß' => ['S', 'S']
  | 'ı' => ['I']
  | 'ſ' => ['S']
  | 'ﬀ' => ['F', 'F']
  | 'ﬁ' => ['F', 'I']
  | 'ﬂ' => ['F', 'L']
  | 'ﬃ' => ['F', 'F', 'I']
  | 'ﬄ' => ['F', 'F', 'L']
  | 'ﬅ' => ['S', 'T']
  | 'ﬆ' => ['S', 'T']
  | _ => [c.toUpper]

/-- The small letter of a character: the sign for kelvin counts as a K. -/
def smallLetter (c : Char) : Char :=
  if c = '\u212a' then 'k' else c.toLower

/-- A text in capitals. -/
def upper (text : String) : String :=
  String.ofList (text.toList.flatMap capitals)

/-- A text in small letters. -/
def lower (text : String) : String :=
  String.ofList (text.toList.map smallLetter)

end Scriptlet.Text
