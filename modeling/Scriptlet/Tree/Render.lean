/-
**Trees written as programs.**

* `Tree.render`: the text of a tree, every operator in parentheses. A tree of a shape that no
  program has may lack what its text is made of, and that is a fault.
* `Tree.depth`: how deep the calls nest that make the text. Only a stack of that size has room for
  them.
-/
import Scriptlet.Fault

namespace Scriptlet

/-- How many calls nest for a node itself where its text is made. Where children are joined, a call
goes from one to the next; those of a pair are written by the hash around it. -/
def Label.calls : Label → Nat
  | program | block | array => 2
  | pair => 0
  | _ => 1

namespace Tree

mutual

/-- The text of a tree. -/
def render : Tree → Except Fault String
  | leaf token => .ok token.text
  | absent => .ok ""
  | node label children =>
    match label with
    | .program | .block => do return String.join (← renderAll children)
    | .letStatement =>
      match children with
      | [name, value] => do return "let " ++ (← name.render) ++ " = " ++ (← value.render) ++ ";"
      | _ => .error (.childCount true 2 children.length)
    | .returnStatement =>
      match children with
      | value :: _ => do return "return " ++ (← value.render) ++ ";"
      | [] => .error .childMissing
    | .expressionStatement =>
      match children with
      | expression :: _ => expression.render
      | [] => .error .childMissing
    | .integer | .boolean | .identifier => tokenText (node label children)
    | .string => do return "\"" ++ (← tokenText (node label children)) ++ "\""
    | .unary =>
      match children with
      | [operator, right] => do return "(" ++ (← operator.render) ++ (← right.render) ++ ")"
      | _ => .error (.childCount true 2 children.length)
    | .binary =>
      match children with
      | [left, operator, right] => do
        return "(" ++ (← left.render) ++ " " ++ (← operator.render) ++ " " ++ (← right.render) ++ ")"
      | _ => .error (.childCount true 3 children.length)
    | .conditional =>
      match children with
      | condition :: consequence :: rest => do
        let start := "if" ++ (← condition.render) ++ " " ++ (← consequence.render)
        return start ++ (← renderAlternative rest)
      | [condition] => do
        let _ ← condition.render
        .error .childMissing
      | [] => .error .childMissing
    | .function =>
      match children with
      | [parameters, body] => do
        let names ← renderChildren parameters
        return "fn(" ++ ", ".intercalate names ++ ") " ++ (← body.render)
      | _ => .error (.childCount true 2 children.length)
    | .call =>
      match children with
      | [callee, arguments] => do
        let values ← renderChildren arguments
        return (← callee.render) ++ "(" ++ ", ".intercalate values ++ ")"
      | _ => .error (.childCount true 2 children.length)
    | .array => do return "[" ++ ", ".intercalate (← renderAll children) ++ "]"
    | .index =>
      match children with
      | [container, position] => do
        return "(" ++ (← container.render) ++ "[" ++ (← position.render) ++ "])"
      | _ => .error (.childCount true 2 children.length)
    | .hash => do return "\x7b" ++ ", ".intercalate (← renderPairs children) ++ "\x7d"
    | .parameters | .arguments | .pair | .other _ =>
      do return " ".intercalate (← renderAll children)

/-- The texts of trees. -/
def renderAll : List Tree → Except Fault (List String)
  | [] => .ok []
  | tree :: rest => do
    let text ← tree.render
    return text :: (← renderAll rest)

/-- The texts of the children of a tree. -/
def renderChildren : Tree → Except Fault (List String)
  | node _ children => renderAll children
  | _ => .ok []

/-- The text of the alternative of a conditional, which may be left out. -/
def renderAlternative : List Tree → Except Fault String
  | [] => .ok ""
  | alternative :: _ =>
    match alternative with
    | .absent => .ok ""
    | alternative => do return "else " ++ (← alternative.render)

/-- The text of a key and its value. -/
def renderPair : Tree → Except Fault String
  | node _ children =>
    match children with
    | [key, value] => do return (← key.render) ++ ":" ++ (← value.render)
    | _ => .error (.childCount true 2 children.length)
  | _ => .error (.childCount true 2 0)

/-- The texts of keys and their values. -/
def renderPairs : List Tree → Except Fault (List String)
  | [] => .ok []
  | pair :: rest => do
    let text ← renderPair pair
    return text :: (← renderPairs rest)

end

mutual

/-- How deep the calls nest that make the text of a tree. -/
def depth : Tree → Nat
  | node label children => label.calls + depthAll children
  | leaf _ => 1
  | absent => 0

/-- How deep the calls nest that make the texts of trees, one after another. -/
def depthAll : List Tree → Nat
  | [] => 0
  | tree :: rest => max tree.depth (depthAll rest)

end

end Tree

end Scriptlet
