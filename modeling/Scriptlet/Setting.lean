/-
**Settings of a session.**

* `Level.resolve`: the level down to which records are shown, from the flag or else from the
  environment variable `levelVariable`. An empty text sets no level.
* `isTruthy`: whether the variable `traceVariable` asks for the evaluations that led to a fault;
  `traceSetting` is what the variable is set to.

`isTruthy_traceSetting`: what is set is read back.
-/
import Scriptlet.Text.Blank
import Scriptlet.Text.Casing

namespace Scriptlet

/-- The levels of records. -/
inductive Level where
  | critical
  | error
  | warning
  | info
  | debug
  | unset
  deriving DecidableEq, Repr

namespace Level

/-- The environment variable that sets the level. -/
def levelVariable : String := "SIMIAN_LOG_LEVEL"

/-- The rank of a level. -/
def rank : Level → Nat
  | critical => 50
  | error => 40
  | warning => 30
  | info => 20
  | debug => 10
  | unset => 0

/-- The level with a given name in capitals. -/
def ofName? : String → Option Level
  | "CRITICAL" | "FATAL" => some critical
  | "ERROR" => some error
  | "WARNING" | "WARN" => some warning
  | "INFO" => some info
  | "DEBUG" => some debug
  | "NOTSET" => some unset
  | _ => none

/-- The level that a flag sets, or else a variable: case and blanks around do not count. A text that
names no level is given back. -/
def resolve (flag environment : Option String) : Except String (Option Level) :=
  match flag.or environment with
  | none => .ok none
  | some raw =>
    if raw = "" then .ok none
    else match ofName? (Text.upper (Text.trim raw)) with
      | some level => .ok (some level)
      | none => .error raw

/-- What is said of a text that names no level. -/
def unknownMessage (raw : String) : String :=
  "Unknown log level: " ++ raw

end Level

namespace Trace

/-- The environment variable that asks for the evaluations that led to a fault. -/
def traceVariable : String := "SIMIAN_DEBUG_PY_TRACE"

/-- Whether the variable asks for them; case and blanks around do not count. -/
def isTruthy (setting : Option String) : Bool :=
  ["1", "true", "yes", "on"].contains (Text.lower (Text.trim (setting.getD "")))

/-- What the variable is set to. -/
def traceSetting (enabled : Bool) : Option String :=
  if enabled then some "1" else none

/-- What is set is read back. -/
theorem isTruthy_traceSetting (enabled : Bool) : isTruthy (traceSetting enabled) = enabled := by
  cases enabled <;> decide +kernel

end Trace

end Scriptlet
