/-
**Faults: why an evaluation ends without a result.**

A runtime error of the language is a value and no fault. A fault is a division by zero, a nesting
beyond the limit, a number that cannot be read, or the lack of something that every tree of a
program has.

* `Tree.shown`: how a tree is shown in messages.
* `Fault.message`: what is said of a fault.
* `Tree.tokenText`: the text of a token, or of the one token below a node.
-/
import Scriptlet.Tree
import Scriptlet.Number.Numeral

namespace Scriptlet

/-- How a token is shown in messages. -/
def Token.shown (token : Token) : String :=
  "Token(" ++ Text.quote token.kind.name ++ ", " ++ Text.quote token.text ++ ")"

namespace Tree

mutual

/-- How a tree is shown in messages. -/
def shown : Tree → String
  | node label children =>
    "Tree(" ++ Text.quote label.name ++ ", [" ++ ", ".intercalate (shownAll children) ++ "])"
  | leaf token => token.shown
  | absent => "None"

/-- How trees are shown in messages. -/
def shownAll : List Tree → List String
  | [] => []
  | tree :: rest => tree.shown :: shownAll rest

end

end Tree

/-- Why an evaluation ends without a result. -/
inductive Fault where
  | divisionByZero
  /-- Evaluations are nested beyond the limit. -/
  | nestingTooDeep
  /-- An operation needs a value and there is none. -/
  | valueMissing
  /-- A node lacks the child that it stands on. -/
  | childMissing
  /-- A node has the wrong number of children: exactly or at least so many are expected. -/
  | childCount (exact : Bool) (expected given : Nat)
  /-- A tree has no token of its own. -/
  | tokenMissing (tree : Tree)
  /-- A text stands for no integer. -/
  | misread (reason : Number.Misread)
  deriving Repr

/-- What is said of a fault. What led to a nesting beyond the limit is not told. -/
def Fault.message : Fault → String
  | divisionByZero => "integer division or modulo by zero"
  | nestingTooDeep => "..."
  | valueMissing => "a value is missing"
  | childMissing => "a child is missing"
  | childCount exact expected given =>
    if given < expected then
      "not enough values to unpack (expected " ++ (if exact then "" else "at least ") ++
        toString expected ++ ", got " ++ toString given ++ ")"
    else "too many values to unpack (expected " ++ toString expected ++ ")"
  | tokenMissing tree => "Expected a token-bearing node, got " ++ tree.shown
  | misread reason => reason.message

/-- The text of a token, or of the one token below a node. -/
def Tree.tokenText : Tree → Except Fault String
  | .leaf token => .ok token.text
  | .node _ [.leaf token] => .ok token.text
  | tree => .error (.tokenMissing tree)

end Scriptlet
