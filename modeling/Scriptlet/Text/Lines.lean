/-
**Lines of a text.**

* `lines`: a text cut at its line feeds.
* `unifyLineEnds`: a carriage return, alone or before a line feed, becomes a line feed.
-/

namespace Scriptlet.Text

/-- Characters cut at line feeds, one list a line. -/
def lineChars : List Char → List (List Char)
  | [] => [[]]
  | c :: rest =>
    if c = '\n' then [] :: lineChars rest
    else match lineChars rest with
      | [] => [[c]]
      | line :: more => (c :: line) :: more

/-- A text cut at its line feeds. -/
def lines (text : String) : List String :=
  (lineChars text.toList).map String.ofList

/-- Characters with every line end written as a line feed. -/
def unifyLineEndChars : List Char → List Char
  | '\r' :: '\n' :: rest => '\n' :: unifyLineEndChars rest
  | '\r' :: rest => '\n' :: unifyLineEndChars rest
  | c :: rest => c :: unifyLineEndChars rest
  | [] => []

/-- A text with every line end written as a line feed. -/
def unifyLineEnds (text : String) : String :=
  String.ofList (unifyLineEndChars text.toList)

end Scriptlet.Text
