/-
**Paths and what they name.**

* `Path.ofText`: the components of a path. Empty components and single points are left out, so that
  a slash at the end makes no difference; two slashes at the start, and no more than two, are kept.
* `Path.text`: a path as it is shown; the path without components is a point.
* `Path.locate`: what a path names, among what a directory and the directories below it hold. Each
  component is looked up in turn, and one over 255 bytes is refused when its turn comes.
* `Path.Obstacle.message`: why nothing can be read there.
-/
import Scriptlet.Text.Quoted

namespace Scriptlet

/-- What a name stands for in a directory. -/
inductive Entry where
  | directory
  | file (content : ByteArray)

/-- A path: the slashes it starts with, and its components. -/
structure Path where
  slashes : Nat
  components : List String
  deriving DecidableEq, Repr

namespace Path

/-- Characters cut at slashes. -/
def pieces : List Char → List (List Char)
  | [] => [[]]
  | c :: rest =>
    if c = '/' then [] :: pieces rest
    else match pieces rest with
      | [] => [[c]]
      | piece :: more => (c :: piece) :: more

/-- How many slashes a path keeps of those it starts with. -/
def rootSlashes (leading : Nat) : Nat :=
  if leading = 2 then 2 else min leading 1

/-- The components of a path. -/
def ofText (text : String) : Path :=
  let chars := text.toList
  let leading := (chars.takeWhile (· == '/')).length
  ⟨rootSlashes leading,
    ((pieces chars).map String.ofList).filter fun piece => piece != "" && piece != "."⟩

/-- A path as it is shown. -/
def text (path : Path) : String :=
  let shown := String.ofList (List.replicate path.slashes '/') ++ "/".intercalate path.components
  if shown = "" then "." else shown

/-- Why nothing can be read at a path. -/
inductive Obstacle where
  | missing
  | notADirectory
  | isADirectory
  | tooLong
  /-- The path holds the character zero. -/
  | zeroCharacter
  deriving DecidableEq, Repr

/-- What is said where nothing can be read at a path. -/
def Obstacle.message (path : Path) : Obstacle → String
  | missing => "[Errno 2] No such file or directory: " ++ Text.quote path.text
  | notADirectory => "[Errno 20] Not a directory: " ++ Text.quote path.text
  | isADirectory => "[Errno 21] Is a directory: " ++ Text.quote path.text
  | tooLong => "[Errno 36] File name too long: " ++ Text.quote path.text
  | zeroCharacter => "embedded null byte"

/-- What directories hold: the entry at some components below the start of a path. -/
abbrev Directory := (slashes : Nat) → (components : List String) → Option Entry

/-- What the rest of the components names below those that name directories. -/
def locateFrom (entry : List String → Option Entry) (above : List String) :
    List String → Except Obstacle Entry
  | [] => .ok .directory
  | name :: rest =>
    if 255 < name.utf8ByteSize then .error .tooLong
    else match entry (above ++ [name]) with
      | none => .error .missing
      | some (.file content) =>
        if rest.isEmpty then .ok (.file content) else .error .notADirectory
      | some .directory => locateFrom entry (above ++ [name]) rest

/-- What a path names. -/
def locate (directory : Directory) (path : Path) : Except Obstacle Entry :=
  if path.text.toList.contains '\x00' then .error .zeroCharacter
  else if 4095 < path.text.utf8ByteSize then .error .tooLong
  else locateFrom (directory path.slashes) [] path.components

end Path

end Scriptlet
