/-
**Values as text.**

* `Value.inspect`: the text a value is printed as. There is none for a missing value, nor for a
  function whose body is no block of a program.
* `Value.shown`: how a value is shown in records, with its type.
* `Value.rendered`: the text of a result, unless there is no value.
* `Value.depth`, `Value.shownDepth`: how deep the calls nest that make these texts.
* `Value.inspectWithin`, `Value.renderedWithin`: the texts where calls may nest up to a limit. Beyond
  the limit there is a fault, and no text.
-/
import Scriptlet.Tree.Render
import Scriptlet.Value.Key

namespace Scriptlet.Value

/-- The text of a truth value. -/
def truthText (truth : Bool) : String :=
  if truth then "true" else "false"

mutual

/-- The text a value is printed as. -/
def inspect : Value → Except Fault String
  | nothing => .error .valueMissing
  | integer number => .ok (toString number)
  | boolean truth => .ok (truthText truth)
  | string _ text => .ok text
  | null => .ok "null"
  | array _ elements => do return "[" ++ ", ".intercalate (← inspectAll elements) ++ "]"
  | hash _ pairs => do return "\x7b" ++ ", ".intercalate (← inspectPairs pairs) ++ "\x7d"
  | function _ parameters body _ => do
    return "fn(" ++ ", ".intercalate parameters ++ ") \x7b\n" ++ (← body.render) ++ "\n\x7d"
  | builtin _ => .ok "builtin function"
  | returned _ operand => operand.inspect
  | error _ complaint => .ok ("ERROR: " ++ complaint.message)

/-- The texts of elements. -/
def inspectAll : List Value → Except Fault (List String)
  | [] => .ok []
  | value :: rest => do
    let text ← value.inspect
    return text :: (← inspectAll rest)

/-- The texts of keys and values. -/
def inspectPairs : List (Value × Value) → Except Fault (List String)
  | [] => .ok []
  | (key, value) :: rest => do
    let name ← key.inspect
    let text ← value.inspect
    return (name ++ ": " ++ text) :: (← inspectPairs rest)

end

/-- How the key of a value is shown in records. -/
def shownKey (value : Value) : String :=
  match value.key? with
  | some key =>
    "HashKey(type_name=" ++ Text.quote key.tag.name ++ ", value=" ++ toString key.code ++ ")"
  | none => ""

mutual

/-- How a value is shown in records. -/
def shown : Value → String
  | nothing => "None"
  | integer number => "Integer(value=" ++ toString number ++ ")"
  | boolean truth => "Boolean(value=" ++ (if truth then "True" else "False") ++ ")"
  | string _ text => "String(value=" ++ Text.quote text ++ ")"
  | null => "NULL"
  | array _ elements => "Array(elements=[" ++ ", ".intercalate (shownAll elements) ++ "])"
  | hash _ pairs => "Hash(pairs=\x7b" ++ ", ".intercalate (shownPairs pairs) ++ "\x7d)"
  | function _ parameters _ _ =>
    let names := ", ".intercalate parameters
    "<fn params=" ++ (if names = "" then "nullary" else names) ++ ">"
  | builtin known => "<builtin " ++ known.name ++ ">"
  | returned _ operand => "ReturnValue(value=" ++ operand.shown ++ ")"
  | error _ complaint => "Error(message=" ++ Text.quote complaint.message ++ ")"

/-- How elements are shown in records. -/
def shownAll : List Value → List String
  | [] => []
  | value :: rest => value.shown :: shownAll rest

/-- How keys and values are shown in records. -/
def shownPairs : List (Value × Value) → List String
  | [] => []
  | (key, value) :: rest =>
    (key.shownKey ++ ": HashPair(key=" ++ key.shown ++ ", value=" ++ value.shown ++ ")") ::
      shownPairs rest

end

/-- The text of a result, unless there is no value. -/
def rendered : Value → Except Fault (Option String)
  | nothing => .ok none
  | value => value.inspect.map some

/-! ### Texts within a limit -/

mutual

/-- How deep the calls nest that make the text of a value. The elements of an array are joined, and
a call goes from one to the next. -/
def depth : Value → Nat
  | array _ elements => 2 + depthAll elements
  | hash _ pairs => 1 + depthPairs pairs
  | function _ _ body _ => 1 + body.depth
  | returned _ operand => 1 + operand.depth
  | _ => 1

/-- How deep the calls nest for the elements of an array. -/
def depthAll : List Value → Nat
  | [] => 0
  | value :: rest => max value.depth (depthAll rest)

/-- How deep the calls nest for the keys and values of a hash. -/
def depthPairs : List (Value × Value) → Nat
  | [] => 0
  | (key, value) :: rest => max (max key.depth value.depth) (depthPairs rest)

end

mutual

/-- How deep the calls nest by which a value is shown in records. What has parts or fields is shown
by two calls, one of which looks out for cycles; the body of a function is not shown. -/
def shownDepth : Value → Nat
  | array _ elements => 2 + shownDepthAll elements
  | hash _ pairs => 4 + shownDepthPairs pairs
  | returned _ operand => 2 + operand.shownDepth
  | integer _ | boolean _ | string _ _ | error _ _ => 2
  | nothing | null | function _ _ _ _ | builtin _ => 1

/-- How deep the calls nest by which elements are shown. -/
def shownDepthAll : List Value → Nat
  | [] => 0
  | value :: rest => max value.shownDepth (shownDepthAll rest)

/-- How deep the calls nest by which keys and values are shown. -/
def shownDepthPairs : List (Value × Value) → Nat
  | [] => 0
  | (key, value) :: rest => max (max key.shownDepth value.shownDepth) (shownDepthPairs rest)

end

/-- The text of a value, where calls may nest up to a limit. -/
def inspectWithin (limit : Nat) (value : Value) : Except Fault String :=
  if value.depth ≤ limit then value.inspect else .error .nestingTooDeep

/-- The text of a result, unless there is no value, where calls may nest up to a limit. -/
def renderedWithin (limit : Nat) : Value → Except Fault (Option String)
  | nothing => .ok none
  | value => (value.inspectWithin limit).map some

end Scriptlet.Value
