/-
**Answers to a command line.**

* `Surroundings`: what the answer depends on besides the arguments.
* `Response`: what is written, how the program exits, and what breaks it down if anything.
* `CommandLine.plan`: what the arguments come to.
* `CommandLine.respond`: the answer to arguments. They ask for a session, or for the run of a source:
  the text of the input, of a file, or of the argument itself where no file has its name.

A source that is no program is reported with the exit code 2, and one that yields a runtime error
with 1. A fault is not caught, neither one of the run nor one of the text of its result.
-/
import Scriptlet.CommandLine
import Scriptlet.CommandLine.Path
import Scriptlet.Session
import Scriptlet.Setting
import Scriptlet.Text.Lines

namespace Scriptlet

/-- What the answer to a command line depends on besides the arguments. -/
structure Surroundings where
  /-- The environment variables. -/
  setting : String → Option String
  /-- The files below the working directory and below the root. All of these directories may be
  searched, so that a path is never refused for a lack of permission. -/
  directory : Path.Directory
  /-- The text of the input. -/
  input : String
  /-- Whether the input is a terminal. -/
  terminal : Bool
  /-- The name of the user. -/
  user? : Option String
  /-- What the user does in a session. -/
  events : List Event
  /-- What is written to clear the screen. -/
  clearing : String
  /-- How deep the evaluation of a source and the calls that make texts may nest. -/
  limit : Nat := nestingLimit

/-- How a program exits of itself. -/
inductive Exit where
  | code (number : Nat)
  /-- With a message, as of misused arguments. -/
  | message (text : String)
  deriving DecidableEq, Repr

/-- What breaks a program down. -/
inductive Breakdown where
  | failure (cause : Failure)
  | unreadable (path : Path) (obstacle : Path.Obstacle)
  /-- The bytes of a file are no UTF-8 text. -/
  | undecodable

/-- What is said of a failure that is not caught. -/
def Failure.message : Failure → String
  | rejected (.misread reason) => reason.message
  | rejected reason => (reason.report?.map Report.text).getD ""
  | halted fault => fault.message

/-- What is said of what breaks a program down. -/
def Breakdown.message : Breakdown → String
  | failure cause => cause.message
  | unreadable path obstacle => obstacle.message path
  | undecodable => "invalid UTF-8"

/-- The answer to a command line: what a session wrote before each prompt, and what was written
after the last one, or without a session. -/
structure Response where
  written : Written
  exit? : Option Exit
  breakdown? : Option Breakdown
  session : List Written

namespace CommandLine

/-- An end before anything is written. -/
inductive Ending where
  | exit (exit : Exit)
  | breakdown (breakdown : Breakdown)

/-- The answer to an end before anything is written. -/
def Ending.response : Ending → Response
  | exit how => ⟨⟨"", ""⟩, some how, none, []⟩
  | breakdown why => ⟨⟨"", ""⟩, none, some why, []⟩

/-- The text of a file, with line feeds for its line ends. -/
def decode (content : ByteArray) : Except Breakdown String :=
  match String.fromUTF8? content with
  | some text => .ok (Text.unifyLineEnds text)
  | none => .error .undecodable

/-- The text of the file that a path names. -/
def readFile (directory : Path.Directory) (path : Path) : Except Breakdown String :=
  match path.locate directory with
  | .ok (.file content) => decode content
  | .ok .directory => .error (.unreadable path .isADirectory)
  | .error obstacle => .error (.unreadable path obstacle)

/-- The source that an argument stands for. -/
def sourceOf (surroundings : Surroundings) : Option String → Except Ending String
  | none | some "-" =>
    if surroundings.input = "" then .error (.exit (.message "No input provided on stdin"))
    else .ok surroundings.input
  | some argument =>
    let path := Path.ofText argument
    match path.locate surroundings.directory with
    | .error .tooLong => .error (.breakdown (.unreadable path .tooLong))
    | .error _ => .ok argument
    | .ok _ => (readFile surroundings.directory path).mapError .breakdown

/-- The record of a grammar that is read. -/
def grammarRecord (name : String) : String :=
  "DEBUG simian.parser: building LALR parser from " ++ name ++ "\n"

/-- What is recorded where a grammar is given, and what breaks down if it cannot be read. An empty
name stands for the grammar of the language, whose reader is taken to be built before, unrecorded;
any other grammar that is read is taken to be a copy of it. -/
def readGrammar (directory : Path.Directory) (recording : Bool) (name : String) :
    String × Option Breakdown :=
  if name = "" then ("", none)
  else
    (if recording then grammarRecord name else "",
      match readFile directory (Path.ofText name) with
      | .ok _ => none
      | .error breakdown => some breakdown)

/-- The answer where the run of a source is over, and calls may nest up to a limit. -/
def conclude (limit : Nat) (outcome : Outcome) (printed records : String) : Response :=
  match outcome.result with
  | .ok value =>
    match value.renderedWithin limit with
    | .ok none => ⟨⟨printed, records⟩, none, none, []⟩
    | .ok (some text) =>
      if value.isError then ⟨⟨printed, records ++ text ++ "\n"⟩, some (.code 1), none, []⟩
      else ⟨⟨printed ++ text ++ "\n", records⟩, none, none, []⟩
    | .error fault => ⟨⟨printed, records⟩, none, some (.failure (.halted fault)), []⟩
  | .error failure =>
    let reported? : Option Report := match failure with
      | .rejected reason => reason.report?
      | .halted _ => none
    match reported? with
    | some report => ⟨⟨printed, records ++ report.parserError⟩, some (.code 2), none, []⟩
    | none => ⟨⟨printed, records⟩, none, some (.failure failure), []⟩

/-- The answer to the run of a source. -/
def runSource (surroundings : Surroundings) (recording : Bool) (request : Request) : Response :=
  match sourceOf surroundings request.source with
  | .error ending => ending.response
  | .ok source =>
    match readGrammar surroundings.directory recording (request.grammar.getD "") with
    | (records, some breakdown) => ⟨⟨"", records⟩, none, some breakdown, []⟩
    | (records, none) =>
      let (outcome, store) :=
        runRecorded surroundings.limit recording source Store.root .initial
      conclude surroundings.limit outcome store.output
        (records ++ if recording then outcome.shownRecords else "")

/-- The answer to a session: what it writes before its last prompt, and what it writes after. -/
def runSession (surroundings : Surroundings) (recording : Bool) : Response :=
  let tracing := Trace.isTruthy (surroundings.setting Trace.traceVariable)
  let (written, failure?) :=
    Session.play surroundings.user?
      (.start surroundings.clearing recording tracing (surroundings.limit - Session.calls))
      surroundings.events
  ⟨written.getLast?.getD ⟨"", ""⟩, none, failure?.map .failure, written.dropLast⟩

/-- What arguments come to: a session or the run of a source, with or without records of the runs. -/
inductive Plan where
  | session (recording : Bool)
  | source (recording : Bool) (request : Request)

/-- What arguments come to, or how the program exits at once. -/
def plan (setting : String → Option String) (terminal : Bool) (arguments : List String) :
    Except Exit Plan := do
  let request ← (scan arguments).mapError fun misuse => .message misuse.message
  let level ← (Level.resolve request.level (setting Level.levelVariable)).mapError
    fun raw => .message (Level.unknownMessage raw)
  let recording := level == some .debug
  if request.interactive || (request.source.isNone && terminal) then return .session recording
  else return .source recording request

/-- The answer to arguments. -/
def respond (surroundings : Surroundings) (arguments : List String) : Response :=
  match plan surroundings.setting surroundings.terminal arguments with
  | .error exit => (Ending.exit exit).response
  | .ok (.session recording) => runSession surroundings recording
  | .ok (.source recording request) => runSource surroundings recording request

end CommandLine

end Scriptlet
