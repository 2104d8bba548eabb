/-
**Calls.**

* `callBuiltin`: what a builtin yields for its arguments.
* `bindAll`: names bound in turn on one scope.
* `call`: what a function value yields for its arguments. The parameters are bound in a new scope
  within the one that the function was made in; arguments without a parameter are dropped, and
  parameters without an argument stay unbound.

How much of the stack is left for the texts of printed values depends on where a call stands, so the
texts are given by a parameter `inspect`.
-/
import Scriptlet.Eval.Operator

namespace Scriptlet.Eval

/-- The elements of an array that a builtin is given. -/
def withElements (builtin : Builtin) (value : Value) (use : List Value → Eval Value) :
    Eval Value :=
  match value with
  | .array _ elements => use elements
  | value => do complain (.notAnArray builtin (← tagOf value))

/-- The texts of values printed, each on lines of its own. -/
def printAll (inspect : Value → Except Fault String) : List Value → Eval Unit
  | [] => return
  | value :: rest => do
    let text ← inspect value
    modify fun store => store.print text
    printAll inspect rest

/-- What a builtin yields for its arguments. -/
def callBuiltin (inspect : Value → Except Fault String) (builtin : Builtin)
    (arguments : List Value) : Eval Value :=
  match builtin, arguments with
  | .len, [value] =>
    match value with
    | .string _ text => return .integer text.length
    | .array _ elements => return .integer elements.length
    | value => do complain (.notMeasurable (← tagOf value))
  | .first, [value] =>
    withElements .first value fun elements => return elements.head?.getD .null
  | .last, [value] =>
    withElements .last value fun elements => return elements.getLast?.getD .null
  | .rest, [value] =>
    withElements .rest value fun
      | [] => return .null
      | _ :: elements => identified fun identity => .array identity elements
  | .push, [value, item] =>
    withElements .push value fun elements =>
      identified fun identity => .array identity (elements ++ [item])
  | .puts, arguments => do
    printAll inspect arguments
    return .null
  | .push, arguments => complain (.wrongCount arguments.length 2)
  | _, arguments => complain (.wrongCount arguments.length 1)

/-- Names bound in turn on one scope. -/
def bindAll (scope : ScopeId) : List (String × Value) → Eval Unit
  | [] => return
  | (name, value) :: rest => do
    modify fun store => store.bind scope name value
    bindAll scope rest

/-- What a function yields for its arguments, where `evaluate` evaluates its body. -/
def call (inspect : Value → Except Fault String) (evaluate : Tree → ScopeId → Eval Value)
    (callee : Value) (arguments : List Value) : Eval Value :=
  match callee with
  | .function _ parameters body scope => do
    let inner ← modifyGet fun store => store.enclose (some scope)
    bindAll inner (parameters.zip arguments)
    let result ← evaluate body inner
    return result.unwrap
  | .builtin builtin => callBuiltin inspect builtin arguments
  | callee => do complain (.notAFunction (← tagOf callee))

end Scriptlet.Eval
