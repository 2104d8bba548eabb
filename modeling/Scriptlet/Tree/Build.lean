/-
**Trees made by hand.**

One constructor for each construct of the language, with tokens that have no place. An operator is
a token of the kind its spelling has in the language, or of the kind named `OP`.
-/
import Scriptlet.Tree

namespace Scriptlet.Build

/-- The operators, unary and binary. -/
def operators : List Kind :=
  [.plus, .minus, .star, .slash, .less, .greater, .equals, .differs, .bang]

/-- The kind of an operator. -/
def operatorKind (text : String) : Kind :=
  (operators.find? fun kind => kind.spelling? == some text).getD (.other "OP")

/-- An operator. -/
def operator (text : String) : Tree :=
  .leaf ⟨operatorKind text, text, default, 0⟩

/-- A name by itself. -/
def word (name : String) : Tree :=
  .leaf ⟨.identifier, name, default, 0⟩

/-- A program of statements. -/
def program (statements : List Tree) : Tree :=
  .node .program statements

/-- A block of statements. -/
def block (statements : List Tree) : Tree :=
  .node .block statements

/-- A statement that binds a name. -/
def binding (name : String) (value : Tree) : Tree :=
  .node .letStatement [word name, value]

/-- A statement that returns. -/
def returning (value : Tree) : Tree :=
  .node .returnStatement [value]

/-- An expression as a statement. -/
def statement (expression : Tree) : Tree :=
  .node .expressionStatement [expression]

/-- An integer. -/
def integer (value : Int) : Tree :=
  .node .integer [.leaf ⟨.integer, toString value, default, 0⟩]

/-- A string. -/
def string (text : String) : Tree :=
  .node .string [.leaf ⟨.string, text, default, 0⟩]

/-- A truth value. -/
def boolean (truth : Bool) : Tree :=
  .node .boolean
    [if truth then .leaf ⟨.trueWord, "true", default, 0⟩
      else .leaf ⟨.falseWord, "false", default, 0⟩]

/-- A name as an expression. -/
def identifier (name : String) : Tree :=
  .node .identifier [word name]

/-- A unary operator and its operand. -/
def unary (text : String) (right : Tree) : Tree :=
  .node .unary [operator text, right]

/-- A binary operator between its operands. -/
def binary (left : Tree) (text : String) (right : Tree) : Tree :=
  .node .binary [left, operator text, right]

/-- A conditional expression, with an alternative or without. -/
def conditional (condition consequence : Tree) (alternative? : Option Tree) : Tree :=
  .node .conditional (condition :: consequence :: alternative?.toList)

/-- A function. -/
def function (parameters : List String) (body : Tree) : Tree :=
  .node .function [.node .parameters (parameters.map word), body]

/-- A call. -/
def call (callee : Tree) (arguments : List Tree) : Tree :=
  .node .call [callee, .node .arguments arguments]

/-- An array. -/
def array (elements : List Tree) : Tree :=
  .node .array elements

/-- An element of a container. -/
def index (container position : Tree) : Tree :=
  .node .index [container, position]

/-- A hash. -/
def hash (pairs : List (Tree × Tree)) : Tree :=
  .node .hash (pairs.map fun (key, value) => .node .pair [key, value])

end Scriptlet.Build
