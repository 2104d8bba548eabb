/-
**Evaluation of trees.**

* `evaluate`: what a tree yields on a scope, where evaluations may be nested up to a limit. Beyond
  the limit there is a fault, and no value; what is printed is printed within what the evaluations
  around it leave of the limit.
* `apply`: what a function value yields for its arguments.
* `nestingLimit`: the limit that programs are run with on the command line.
-/
import Scriptlet.Eval.Step

namespace Scriptlet

/-- What a tree yields on a scope, with evaluations nested at most `limit` deep. -/
def evaluate : (limit : Nat) → Tree → ScopeId → Eval Value
  | 0, _, _ => throw .nestingTooDeep
  | limit + 1, tree, scope =>
    Eval.step (evaluate limit) (Eval.call (Value.inspectWithin limit) (evaluate limit)) scope tree

/-- What a function value yields for its arguments, with evaluations nested at most `limit` deep. -/
def apply (limit : Nat) (callee : Value) (arguments : List Value) : Eval Value :=
  Eval.call (Value.inspectWithin limit) (evaluate limit) callee arguments

/-- The limit that programs are run with on the command line. -/
def nestingLimit : Nat := 5000

end Scriptlet
