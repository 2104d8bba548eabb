/-
**Slash commands.**

* `Command.ofLine?`: the command of a line that starts with a slash.
* `Command.completions`: the commands that a text before the cursor can be completed to.
* `Switch.ofArgument`: what the argument of the trace command asks for.
-/
import Scriptlet.Text.Blank
import Scriptlet.Text.Casing

namespace Scriptlet

/-- What the argument of the trace command asks for. -/
inductive Switch where
  | on
  | off
  | toggle
  | unclear
  deriving DecidableEq, Repr

/-- What an argument asks for; case does not count. -/
def Switch.ofArgument (argument : String) : Switch :=
  if ["on", "1", "true", "yes"].contains (Text.lower argument) then .on
  else if ["off", "0", "false", "no"].contains (Text.lower argument) then .off
  else if argument = "" then .toggle
  else .unclear

/-- A slash command. -/
inductive Command where
  | clear
  | bindings
  | trace (switch : Switch)
  | reset
  | unknown (word : String)
  deriving DecidableEq, Repr

namespace Command

/-- The commands by name, with what they do. -/
def catalogue : List (String × String) :=
  [("/clear", "Clear the terminal screen"),
    ("/env", "List bindings in the session environment"),
    ("/py-traceback", "Toggle Python traceback on host faults [on|off]"),
    ("/reset", "Reset the REPL environment")]

/-- The command of a line that starts with a slash; blanks around do not count. -/
def ofLine? (text : String) : Option Command :=
  let line := Text.trim text
  if line.toList.head? = some '/' then
    let (word, argument) := Text.firstWord line
    some (match word with
      | "/clear" => .clear
      | "/env" => .bindings
      | "/py-traceback" => .trace (.ofArgument argument)
      | "/reset" => .reset
      | word => .unknown word)
  else none

/-- A command offered in place of the last characters before the cursor. -/
structure Completion where
  name : String
  replaced : Nat
  purpose : String
  deriving DecidableEq, Repr

/-- The commands that a text before the cursor can be completed to. -/
def completions (before : String) : List Completion :=
  if before.toList.head? = some '/' then
    (catalogue.filter fun entry => before.toList.isPrefixOf entry.1.toList).map
      fun entry => ⟨entry.1, before.toList.length, entry.2⟩
  else []

end Command

end Scriptlet
