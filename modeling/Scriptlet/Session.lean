/-
**Interactive sessions.**

* `Session`: the bindings and the settings of a session.
* `Session.respond`: what is written in answer to an event, and the session after it. A line is
  evaluated, unless it is blank or a slash command; bindings last from line to line. A runtime
  error, a text that is no program, a division by zero and an evaluation nested beyond the limit are
  reported, and the session goes on.
* `Session.play`: what a sequence of events writes, from the greeting to the end of input.

A failure that is not reported ends the session: it is the second part of what `play` gives. The
texts of results and bindings are made when the evaluation is over, and a text that takes too many
nested calls is such a failure.
-/
import Scriptlet.Run
import Scriptlet.Session.Command

namespace Scriptlet

/-- What is written to the output and to the error output. -/
structure Written where
  out : String := ""
  err : String := ""
  deriving DecidableEq, Repr

/-- The bindings and settings of a session. -/
structure Session where
  /-- What is written to clear the screen. -/
  clearing : String
  /-- Whether runs are recorded. The reader of the language is taken to be built by then, as it is to
  highlight what is typed, so that no answer records its being built. -/
  recording : Bool
  /-- Whether the evaluations that led to a fault are shown. -/
  tracing : Bool
  store : Store
  /-- How deep evaluations and the calls that make texts may nest. -/
  limit : Nat

/-- What the user does. -/
inductive Event where
  /-- A line is entered. -/
  | line (text : String)
  /-- The line is given up. -/
  | interrupt
  deriving DecidableEq, Repr

/-- An answer to an event: what is written, the session after it, and what ends it if anything. -/
structure Answer where
  written : Written
  session : Session
  failure? : Option Failure := none

/-- The heading under which a fault is reported, if it is. -/
def Fault.heading? : Fault → Option String
  | divisionByZero => some "ZeroDivisionError"
  | nestingTooDeep => some "RecursionError"
  | _ => none

/-- The records of a run as they are shown. -/
def Outcome.shownRecords (outcome : Outcome) : String :=
  String.join (outcome.records.map fun record => "DEBUG simian.runner: " ++ record ++ "\n")

/-- A rejected text as it is reported. -/
def Report.parserError (report : Report) : String :=
  "parser error: " ++ report.text ++ "\n"

namespace Session

/-- How many more calls are under way when a session runs a line than when the command line runs a
source. -/
def calls : Nat := 3

/-- A session at its start. -/
def start (clearing : String) (recording tracing : Bool) (limit : Nat := nestingLimit - calls) :
    Session :=
  ⟨clearing, recording, tracing, .initial, limit⟩

/-- The characters that a line loses before it is looked at. -/
def isInvisible (c : Char) : Bool :=
  ['\u200b', '\u200c', '\u200d', '\ufeff', '\u00a0', '\r'].contains c

/-- A line without its invisible characters. -/
def normalize (text : String) : String :=
  String.ofList (text.toList.filter (!isInvisible ·))

/-- The lines that start a session. -/
def greeting (user? : Option String) : String :=
  "Hello " ++ user?.getD "there" ++ "! This is the Simian programming language!\n" ++
    "Feel free to type in commands (Ctrl-D to exit, / for commands)\n"

/-- The line that ends a session. -/
def farewell : String := "\n"

/-- A fault as it is reported under a heading. The evaluations that led to it are not kept, and an
ellipsis stands for them. -/
def faultReport (tracing : Bool) (heading : String) (fault : Fault) : String :=
  "fatal: " ++ heading ++ ": " ++ fault.message ++ "\n" ++
    (if tracing then "\nPython traceback:\n...\n" else "")

/-- A line of a program evaluated. -/
def submit (session : Session) (text : String) : Answer :=
  let (outcome, store) := runRecorded session.limit session.recording text Store.root session.store
  let records := if session.recording then outcome.shownRecords else ""
  let printed := store.output
  let session := { session with store := store.cleared }
  let failed (failure : Failure) : Answer := ⟨⟨printed, records⟩, session, some failure⟩
  match outcome.result with
  | .ok value =>
    match value.renderedWithin session.limit with
    | .ok none => ⟨⟨printed, records⟩, session, none⟩
    | .ok (some text) =>
      if value.isError then ⟨⟨printed, records ++ text ++ "\n"⟩, session, none⟩
      else ⟨⟨printed ++ text ++ "\n", records⟩, session, none⟩
    | .error fault => failed (.halted fault)
  | .error (.rejected reason) =>
    match reason.report? with
    | some report => ⟨⟨printed, records ++ report.parserError⟩, session, none⟩
    | none => failed (.rejected reason)
  | .error (.halted fault) =>
    match fault.heading? with
    | some heading =>
      ⟨⟨printed, records ++ faultReport session.tracing heading fault⟩, session, none⟩
    | none => failed (.halted fault)

/-- The bindings of a session, a line for each name in order, up to the first value without a text:
the fault that it is, if there is one, comes second. -/
def listing (limit : Nat) (store : Store) : List String → String × Option Fault
  | [] => ("", none)
  | name :: rest =>
    match ((store.lookup? Store.root name).getD .nothing).renderedWithin limit with
    | .error fault => ("", some fault)
    | .ok text? =>
      let (lines, fault?) := listing limit store rest
      (name ++ " = " ++ text?.getD "None" ++ "\n" ++ lines, fault?)

/-- Whether faults are traced after a switch. -/
def switched (tracing : Bool) : Switch → Bool
  | .on => true
  | .off => false
  | .toggle => !tracing
  | .unclear => tracing

/-- A slash command carried out. -/
def obey (session : Session) : Command → Answer
  | .clear => ⟨⟨session.clearing, ""⟩, session, none⟩
  | .bindings =>
    let (lines, fault?) :=
      listing session.limit session.store (session.store.names Store.root)
    ⟨⟨lines, ""⟩, session, fault?.map .halted⟩
  | .trace .unclear => ⟨⟨"", "Usage: /py-traceback [on|off]\n"⟩, session, none⟩
  | .trace switch =>
    let tracing := switched session.tracing switch
    ⟨⟨"Python traceback: " ++ (if tracing then "on" else "off") ++ "\n", ""⟩,
      { session with tracing }, none⟩
  | .reset => ⟨⟨"Environment reset.\n", ""⟩, { session with store := .initial }, none⟩
  | .unknown word => ⟨⟨"", "Unknown command: " ++ word ++ "\n"⟩, session, none⟩

/-- What is written in answer to an event, and the session after it. -/
def respond (session : Session) : Event → Answer
  | .interrupt => ⟨⟨"KeyboardInterrupt\n", ""⟩, session, none⟩
  | .line text =>
    let text := normalize text
    if Text.isAllBlank text then ⟨⟨"", ""⟩, session, none⟩
    else match Command.ofLine? text with
      | some command => obey session command
      | none => submit session text

/-- What events write, one by one, and what follows the end of input; a failure ends the session. -/
def playFrom (session : Session) : List Event → List Written × Option Failure
  | [] => ([⟨farewell, ""⟩], none)
  | event :: rest =>
    let answer := session.respond event
    match answer.failure? with
    | some failure => ([answer.written], some failure)
    | none =>
      let (written, failure?) := answer.session.playFrom rest
      (answer.written :: written, failure?)

/-- What a session writes, from the greeting on. -/
def play (user? : Option String) (session : Session) (events : List Event) :
    List Written × Option Failure :=
  let (written, failure?) := session.playFrom events
  (⟨greeting user?, ""⟩ :: written, failure?)

end Session

end Scriptlet
