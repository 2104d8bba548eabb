/-
**Values.**

* `Value`: what an evaluation yields. A string, an array, a hash, a function or a signal has an
  identity, by which `==` tells it from another of the same content; an integer, a boolean, null or
  a builtin is the same wherever it stands.
* `Value.isSignal`: an error or a returned operand, which ends what is being evaluated.
* `Value.same`: the language's `==`.
* `Complaint`: the causes of the language's runtime errors, with `Complaint.message`.

`Value.same_self`: a value is the same as itself; `Value.same_comm`: sameness is symmetric.
-/
import Scriptlet.Tree

namespace Scriptlet

/-- The types of values. -/
inductive Tag where
  | integer
  | boolean
  | string
  | null
  | array
  | hash
  | function
  | builtin
  | returned
  | error
  deriving DecidableEq, Repr

/-- The name of a type. -/
def Tag.name : Tag → String
  | integer => "INTEGER"
  | boolean => "BOOLEAN"
  | string => "STRING"
  | null => "NULL"
  | array => "ARRAY"
  | hash => "HASH"
  | function => "FUNCTION"
  | builtin => "BUILTIN"
  | returned => "RETURN_VALUE"
  | error => "ERROR"

/-- The functions that every program can call. -/
inductive Builtin where
  | first
  | last
  | len
  | push
  | puts
  | rest
  deriving DecidableEq, Repr

namespace Builtin

/-- The builtins, by name in order. -/
def all : List Builtin :=
  [first, last, len, push, puts, rest]

/-- The name of a builtin. -/
def name : Builtin → String
  | first => "first"
  | last => "last"
  | len => "len"
  | push => "push"
  | puts => "puts"
  | rest => "rest"

/-- The builtin with a given name. -/
def ofName? (name : String) : Option Builtin :=
  all.find? fun builtin => builtin.name == name

/-- A builtin is found by its name. -/
theorem ofName?_name (builtin : Builtin) : ofName? builtin.name = some builtin := by
  cases builtin <;> rfl

end Builtin

/-- The causes of runtime errors. -/
inductive Complaint where
  | unknownName (name : String)
  | notAFunction (given : Tag)
  | typeMismatch (left : Tag) (operator : String) (right : Tag)
  | unknownBinary (left : Tag) (operator : String) (right : Tag)
  | unknownUnary (operator : String) (right : Tag)
  | notIndexable (given : Tag)
  | notAKey (given : Tag)
  | wrongCount (given expected : Nat)
  | notMeasurable (given : Tag)
  | notAnArray (builtin : Builtin) (given : Tag)
  /-- An error of another origin. -/
  | stated (message : String)
  deriving DecidableEq, Repr

/-- The message of a runtime error. -/
def Complaint.message : Complaint → String
  | unknownName name => "identifier not found: " ++ name
  | notAFunction given => "not a function: " ++ given.name
  | typeMismatch left operator right =>
    "type mismatch: " ++ left.name ++ " " ++ operator ++ " " ++ right.name
  | unknownBinary left operator right =>
    "unknown operator: " ++ left.name ++ " " ++ operator ++ " " ++ right.name
  | unknownUnary operator right => "unknown operator: " ++ operator ++ right.name
  | notIndexable given => "index operator not supported: " ++ given.name
  | notAKey given => "unusable as hash key: " ++ given.name
  | wrongCount given expected =>
    "wrong number of arguments. got=" ++ toString given ++ ", want=" ++ toString expected
  | notMeasurable given => "argument to \x60len\x60 not supported, got " ++ given.name
  | notAnArray builtin given =>
    "argument to \x60" ++ builtin.name ++ "\x60 must be ARRAY, got " ++ given.name
  | stated message => message

/-- The name of a scope: its place among all scopes. -/
abbrev ScopeId := Nat

/-- What an evaluation yields. -/
inductive Value where
  /-- No value: what a statement without a result yields. -/
  | nothing
  | integer (number : Int)
  | boolean (truth : Bool)
  | string (identity : Nat) (text : String)
  | null
  | array (identity : Nat) (elements : List Value)
  /-- A hash with its keys and values in the order of the keys' first use. -/
  | hash (identity : Nat) (pairs : List (Value × Value))
  /-- A function with the scope it was made in. -/
  | function (identity : Nat) (parameters : List String) (body : Tree) (scope : ScopeId)
  | builtin (builtin : Builtin)
  /-- The operand of a `return` on its way to the end of the function. -/
  | returned (identity : Nat) (operand : Value)
  /-- A runtime error on its way to the end of the program. -/
  | error (identity : Nat) (complaint : Complaint)
  deriving Repr, Inhabited

namespace Value

/-- The type of a value. -/
def tag? : Value → Option Tag
  | nothing => none
  | integer _ => some .integer
  | boolean _ => some .boolean
  | string _ _ => some .string
  | null => some .null
  | array _ _ => some .array
  | hash _ _ => some .hash
  | function _ _ _ _ => some .function
  | builtin _ => some .builtin
  | returned _ _ => some .returned
  | error _ _ => some .error

/-- A runtime error. -/
def isError : Value → Bool
  | error _ _ => true
  | _ => false

/-- A value that ends what is being evaluated. -/
def isSignal : Value → Bool
  | returned _ _ | error _ _ => true
  | _ => false

/-- A value that a condition takes for true: all but false and null. -/
def isTruthy : Value → Bool
  | boolean truth => truth
  | null => false
  | _ => true

/-- What a program yields where its statements yield a value: a returned operand is taken out. -/
def operand : Value → Value
  | returned _ operand => operand
  | value => value

/-- What a call yields where the body yields a value: a returned operand is taken out, and null
stands for no value. -/
def unwrap : Value → Value
  | returned _ operand => operand
  | nothing => null
  | value => value

/-- Null in place of no value. -/
def orNull : Value → Value
  | nothing => null
  | value => value

/-- The identity of a value that has one. -/
def identity? : Value → Option Nat
  | string identity _ | array identity _ | hash identity _ | function identity _ _ _
  | returned identity _ | error identity _ => some identity
  | _ => none

/-- The language's `==`: equal numbers, equal truth values, or one and the same value. -/
def same : Value → Value → Bool
  | integer left, integer right => left == right
  | boolean left, boolean right => left == right
  | null, null => true
  | nothing, nothing => true
  | builtin left, builtin right => left == right
  | left, right =>
    match left.identity?, right.identity? with
    | some first, some second => first == second && left.tag? == right.tag?
    | _, _ => false

/-- A value is the same as itself. -/
theorem same_self (value : Value) : value.same value = true := by
  cases value <;> simp [same, identity?, tag?]

/-- Sameness is symmetric. -/
theorem same_comm (left right : Value) : left.same right = right.same left := by
  cases left <;> cases right <;> simp [same, identity?, tag?, BEq.comm]

end Value

end Scriptlet
