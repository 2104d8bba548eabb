/-
**Command-line arguments.**

* `CommandLine.scan`: what the arguments ask for, or how they are misused. Of a flag given twice the
  last counts, and the argument after a flag without `=` is its value whatever it looks like.
* `CommandLine.Misuse.message`: what is said of arguments that are misused.
-/

namespace Scriptlet.CommandLine

/-- What the arguments ask for. -/
structure Request where
  interactive : Bool
  grammar : Option String
  level : Option String
  source : Option String
  deriving DecidableEq, Repr

/-- How arguments are misused. -/
inductive Misuse where
  | grammarMissing
  | levelMissing
  | unexpected (argument : String)
  deriving DecidableEq, Repr

/-- What is said of arguments that are misused. -/
def Misuse.message : Misuse → String
  | grammarMissing => "--grammar flag requires a path"
  | levelMissing => "--log-level flag requires a level"
  | unexpected argument => "Unexpected argument: " ++ argument

/-- The flag with a grammar, up to its value. -/
def grammarFlag : String := "--grammar="

/-- The flag with a level, up to its value. -/
def levelFlag : String := "--log-level="

/-- What follows a flag in an argument that starts with it. -/
def valueAfter? (flag argument : String) : Option String :=
  if flag.toList.isPrefixOf argument.toList then
    some (String.ofList (argument.toList.drop flag.toList.length))
  else none

/-- What a single argument is. -/
inductive Argument where
  | interactive
  | grammarFlag
  | levelFlag
  | grammar (value : String)
  | level (value : String)
  | source (text : String)
  deriving DecidableEq, Repr

/-- What an argument is where no flag awaits its value. -/
def Argument.ofText (text : String) : Argument :=
  if text = "--repl" then .interactive
  else match valueAfter? CommandLine.grammarFlag text with
    | some value => .grammar value
    | none =>
      if text = "--grammar" then .grammarFlag
      else match valueAfter? CommandLine.levelFlag text with
        | some value => .level value
        | none => if text = "--log-level" then .levelFlag else .source text

/-- What arguments ask for beyond what was asked for so far. -/
def scanFrom (request : Request) : List String → Except Misuse Request
  | [] => .ok request
  | argument :: rest =>
    match Argument.ofText argument with
    | .interactive => scanFrom { request with interactive := true } rest
    | .grammar value => scanFrom { request with grammar := some value } rest
    | .level value => scanFrom { request with level := some value } rest
    | .grammarFlag =>
      match rest with
      | value :: rest => scanFrom { request with grammar := some value } rest
      | [] => .error .grammarMissing
    | .levelFlag =>
      match rest with
      | value :: rest => scanFrom { request with level := some value } rest
      | [] => .error .levelMissing
    | .source text =>
      match request.source with
      | none => scanFrom { request with source := some text } rest
      | some _ => .error (.unexpected text)

/-- What arguments ask for. -/
def scan (arguments : List String) : Except Misuse Request :=
  scanFrom ⟨false, none, none, none⟩ arguments

end Scriptlet.CommandLine
