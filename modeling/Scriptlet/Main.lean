/-
**The command line.**

* `Terminal.answer`: the program. A session reads its lines from the input one by one; all else is the answer
  of `CommandLine.respond` to what surrounds the program.
-/
import Scriptlet.CommandLine.Response

namespace Scriptlet.Terminal

/-- What is written to clear the screen. -/
def clearing : String := "\x1b[2J\x1b[0;0H"

/-- The variables that may hold the name of the user. -/
def userVariables : List String := ["LOGNAME", "USER", "LNAME", "USERNAME"]

/-- The values of environment variables. -/
def settings (names : List String) : IO (List (String × String)) :=
  names.filterMapM fun name => do return (← IO.getEnv name).map (name, ·)

/-- What a name stands for among the files; a directory cannot be read as a file. -/
def entryAt (name : String) : IO (Option Entry) :=
  try return some (.file (← IO.FS.readBinFile name))
  catch
    | .inappropriateType .. => return some .directory
    | _ => return none

/-- What the parts of a path name, from the start on. -/
def entriesAlong (path : Path) : IO (List (Nat × List String × Entry)) :=
  (List.range path.components.length).filterMapM fun count => do
    let start : Path := ⟨path.slashes, path.components.take (count + 1)⟩
    if start.text.toList.contains '\x00' then return none
    return (← entryAt start.text).map (start.slashes, start.components, ·)

/-- The directory that known entries make up. -/
def directoryOf (entries : List (Nat × List String × Entry)) : Path.Directory :=
  fun slashes components =>
    (entries.find? fun entry => entry.1 == slashes && entry.2.1 == components).map (·.2.2)

/-- Something written to both outputs. -/
def write (written : Written) : IO Unit := do
  IO.print written.out
  (← IO.getStdout).flush
  IO.eprint written.err

/-- The exit code for an answer, with what is said of a breakdown or an exit. -/
def finish (exit? : Option Exit) (breakdown? : Option Breakdown) : IO UInt32 := do
  match exit?, breakdown? with
  | _, some breakdown =>
    IO.eprintln breakdown.message
    return 1
  | some (.message text), none =>
    IO.eprintln text
    return 1
  | some (.code number), none => return number.toUInt32
  | none, none => return 0

/-- A session line by line, until the end of the input. -/
partial def converse (session : Session) (input : IO.FS.Stream) : IO UInt32 := do
  write ⟨">> ", ""⟩
  let line ← input.getLine
  if line.isEmpty then
    write ⟨Session.farewell, ""⟩
    return 0
  let answer := session.respond (.line ((Text.lines line).headD ""))
  write answer.written
  match answer.failure? with
  | some failure => finish none (some (.failure failure))
  | none => converse answer.session input

/-- The program. -/
def answer (arguments : List String) : IO UInt32 := do
  let input ← IO.getStdin
  let known ← settings ([Level.levelVariable, Trace.traceVariable] ++ userVariables)
  let setting (name : String) : Option String := known.lookup name
  let user? := userVariables.findSome? setting
  let terminal ← input.isTty
  match CommandLine.plan setting terminal arguments with
  | .error exit => finish (some exit) none
  | .ok (.session recording) =>
    write ⟨Session.greeting user?, ""⟩
    let tracing := Trace.isTruthy (setting Trace.traceVariable)
    converse (.start clearing recording tracing) input
  | .ok (.source recording request) =>
    let paths := (request.source.toList ++ request.grammar.toList).map Path.ofText
    let entries ← paths.mapM entriesAlong
    let text? ← if request.source.isNone || request.source == some "-" then
        (try some <$> input.readToEnd catch _ => pure none) else pure (some "")
    match text? with
    | none => finish none (some .undecodable)
    | some text =>
      let response := CommandLine.runSource
        ⟨setting, directoryOf entries.flatten, text, terminal, user?, [], clearing, nestingLimit⟩
        recording request
      write response.written
      finish response.exit? response.breakdown?

end Scriptlet.Terminal

/-- The program, from its arguments to its exit code. -/
def main (arguments : List String) : IO UInt32 :=
  Scriptlet.Terminal.answer arguments
