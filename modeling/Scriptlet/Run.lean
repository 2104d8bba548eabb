/-
**Programs run from their text.**

* `run`: what becomes of a program on a scope of a store, and the store after it; `runWithin` is the
  same for any limit on the nesting of evaluations.
* `runRecorded`: a run as a front end has it. Where runs are recorded, the record of the result is a
  part of the run, and may exhaust the limit as well.
* `Failure`: a text that is no program, or a fault in the evaluation of one.
-/
import Scriptlet.Eval
import Scriptlet.Reader

namespace Scriptlet

/-- Why a run has no result. -/
inductive Failure where
  /-- The text is no program. -/
  | rejected (reason : Rejection)
  /-- The evaluation of the program ended in a fault. -/
  | halted (fault : Fault)
  deriving Repr

/-- What became of a text: its program, if it is one, and the result. -/
structure Outcome where
  program? : Option Tree
  result : Except Failure Value

/-- What is recorded of a run, in order: the size of the program and its result. -/
def Outcome.records (outcome : Outcome) : List String :=
  (outcome.program?.map fun program =>
      "parsed " ++ toString program.children.length ++ " top-level statement(s)").toList ++
    (outcome.result.toOption.map fun value => "program result: " ++ value.shown).toList

/-- A program run on a scope of a store, with evaluations nested at most `limit` deep. -/
def runWithin (limit : Nat) (source : String) (scope : ScopeId) (store : Store) : Outcome × Store :=
  match parse source with
  | .error reason => (⟨none, .error (.rejected reason)⟩, store)
  | .ok program =>
    let (result, store) := (evaluate limit program scope).runFrom store
    (⟨some program, result.mapError .halted⟩, store)

/-- What becomes of a run whose result is recorded, where calls may nest up to a limit. -/
def Outcome.recordedWithin (limit : Nat) (outcome : Outcome) : Outcome :=
  match outcome.result with
  | .ok value =>
    if value.shownDepth ≤ limit then outcome
    else { outcome with result := .error (.halted .nestingTooDeep) }
  | .error _ => outcome

/-- A program run by a front end, which may record its runs. -/
def runRecorded (limit : Nat) (recording : Bool) (source : String) (scope : ScopeId)
    (store : Store) : Outcome × Store :=
  let (outcome, store) := runWithin limit source scope store
  (if recording then outcome.recordedWithin limit else outcome, store)

/-- A program run on a scope of a store. -/
def run (source : String) (scope : ScopeId) (store : Store) : Outcome × Store :=
  runWithin nestingLimit source scope store

end Scriptlet
