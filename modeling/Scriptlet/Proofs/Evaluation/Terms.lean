/-
**What evaluations keep to.**

* `Terms`: what a store must be like while something is evaluated, how it may change, and which
  faults may end the evaluation.
* `Terms.Agree`: from a store, two evaluations do the same, and what they do keeps to the terms. An
  evaluation that agrees with itself keeps to the terms; two that differ in what they watch for
  agree when neither finds anything.

Main statements: `Terms.Agree.bind`, agreement goes through a sequence of evaluations, with one
rule beside it for each thing an evaluation does by itself. Every proof about the evaluation of
trees is put together from these rules, so that no other module opens the monad.
-/
import Scriptlet.Run

namespace Scriptlet

variable {α β : Type}

/-! ### Evaluations from a store -/

namespace Eval

@[simp] theorem runFrom_pure (value : α) (store : Store) :
    (pure value : Eval α).runFrom store = (.ok value, store) := rfl

@[simp] theorem runFrom_throw (fault : Fault) (store : Store) :
    (throw fault : Eval α).runFrom store = (.error fault, store) := rfl

/-- A sequence of evaluations: a fault of the first one ends it. -/
theorem runFrom_bind (first : Eval α) (next : α → Eval β) (store : Store) :
    (first >>= next).runFrom store =
      match first.runFrom store with
      | (.ok value, after) => (next value).runFrom after
      | (.error fault, after) => (.error fault, after) := by
  show StateT.bind (first : StateM Store (Except Fault α)) (ExceptT.bindCont next) store = _
  simp only [StateT.bind, runFrom, ExceptT.run]
  cases (first : StateM Store (Except Fault α)) store with
  | mk result after => cases result <;> rfl

/-- After a value, a sequence goes on with it. -/
theorem runFrom_bind_of_ok {first : Eval α} {store after : Store} {value : α}
    (ran : first.runFrom store = (.ok value, after)) (next : α → Eval β) :
    (first >>= next).runFrom store = (next value).runFrom after := by
  rw [runFrom_bind, ran]

/-- After a fault, it does not go on. -/
theorem runFrom_bind_of_error {first : Eval α} {store after : Store} {fault : Fault}
    (ran : first.runFrom store = (.error fault, after)) (next : α → Eval β) :
    (first >>= next).runFrom store = (.error fault, after) := by
  rw [runFrom_bind, ran]

/-- A sequence yields a value only if its first evaluation does. -/
theorem exists_of_runFrom_bind {first : Eval α} {next : α → Eval β} {store after : Store}
    {result : β} (ran : (first >>= next).runFrom store = (.ok result, after)) :
    ∃ value middle, first.runFrom store = (.ok value, middle) ∧
      (next value).runFrom middle = (.ok result, after) := by
  rw [runFrom_bind] at ran
  split at ran
  next value middle first => exact ⟨value, middle, first, ran⟩
  · cases ran

section Used

variable {first : Eval Value} {store after : Store} {value : Value}
  (ran : first.runFrom store = (.ok value, after)) (use : Value → Eval Value)

include ran

/-- A value that is no signal is used. -/
theorem runFrom_used_calm (calm : value.isSignal = false) :
    (do let value ← first; unlessSignal value (use value)).runFrom store =
      (use value).runFrom after := by
  rw [runFrom_bind_of_ok ran]
  simp [unlessSignal, calm]

/-- A signal is not used. -/
theorem runFrom_used_signal (isSignal : value.isSignal = true) :
    (do let value ← first; unlessSignal value (use value)).runFrom store = (.ok value, after) := by
  rw [runFrom_bind_of_ok ran]
  simp [unlessSignal, isSignal]

end Used

/-- An evaluation whose value is changed at the end. -/
theorem runFrom_return (evaluation : Eval α) (change : α → β) (store : Store) :
    (do return change (← evaluation) : Eval β).runFrom store =
      ((evaluation.runFrom store).1.map change, (evaluation.runFrom store).2) := by
  rw [runFrom_bind]
  obtain ⟨⟨result, after⟩, run⟩ : ∃ outcome, evaluation.runFrom store = outcome := ⟨_, rfl⟩
  rw [run]
  cases result <;> rfl

@[simp] theorem runFrom_modify (change : Store → Store) (store : Store) :
    (modify change : Eval Unit).runFrom store = (.ok (), change store) := rfl

@[simp] theorem runFrom_modifyGet (change : Store → α × Store) (store : Store) :
    (modifyGet change : Eval α).runFrom store = (.ok (change store).1, (change store).2) := rfl

@[simp] theorem runFrom_get (store : Store) :
    (get : Eval Store).runFrom store = (.ok store, store) := rfl

@[simp] theorem runFrom_lift (result : Except Fault α) (store : Store) :
    (liftM result : Eval α).runFrom store = (result, store) := by
  cases result <;> rfl

end Eval

/-- A program is evaluated by its statements. -/
theorem evaluate_program (limit : Nat) (parts : List Tree) (scope : ScopeId) :
    evaluate (limit + 1) (.node .program parts) scope =
      (do return (← Eval.statements (evaluate limit) scope .nothing parts).operand) := rfl

/-- The value of one statement is that of the statements. -/
theorem Eval.statements_singleton (evaluate : Tree → ScopeId → Eval Value) (scope : ScopeId)
    (last : Value) (statement : Tree) :
    Eval.statements evaluate scope last [statement] = evaluate statement scope := by
  have ends : ∀ value : Value, Eval.unlessSignal value (pure value) = pure value := by
    intro value
    unfold Eval.unlessSignal
    split <;> rfl
  simp only [Eval.statements, ends, bind_pure]

/-- A program whose only statement is an expression. -/
theorem evaluate_expressing (limit : Nat) (scope : ScopeId) (expression : Tree) :
    evaluate (limit + 2) (.node .program [.node .expressionStatement [expression]]) scope =
      (do return (← evaluate limit expression scope).operand) := by
  rw [evaluate_program, Eval.statements_singleton]
  rfl

/-- A text that is a program is run by its evaluation. -/
theorem runWithin_of_parse {source : String} {program : Tree}
    (accepted : parse source = .ok program) (limit : Nat) (scope : ScopeId) (store : Store) :
    runWithin limit source scope store =
      (⟨some program, ((evaluate limit program scope).runFrom store).1.mapError .halted⟩,
        ((evaluate limit program scope).runFrom store).2) := by
  rw [runWithin, accepted]

/-! ### Terms and agreement -/

/-- What evaluations keep to: the stores that may arise, how a store may change, and the faults
that may end an evaluation. -/
structure Terms where
  good : Store → Prop
  moves : Store → Store → Prop
  faults : Fault → Prop
  refl : ∀ store, moves store store
  trans : ∀ {first second third}, moves first second → moves second third → moves first third

namespace Terms

/-- From a store, two evaluations do the same and keep to the terms; a value they yield has the
given property in the store they leave. -/
structure Agree (terms : Terms) (yields : Store → α → Prop) (store : Store)
    (first second : Eval α) : Prop where
  same : first.runFrom store = second.runFrom store
  good : terms.good (second.runFrom store).2
  moves : terms.moves store (second.runFrom store).2
  yields : ∀ value, (second.runFrom store).1 = .ok value → yields (second.runFrom store).2 value
  faults : ∀ fault, (second.runFrom store).1 = .error fault → terms.faults fault

namespace Agree

variable {terms : Terms} {yields between : Store → α → Prop} {ends : Store → β → Prop}
  {store : Store} {first second : Eval α}

/-- What is yielded may be known to have less. -/
theorem weaken (agree : terms.Agree between store first second)
    (enough : ∀ after value, terms.good after → terms.moves store after → between after value →
      yields after value) : terms.Agree yields store first second where
  same := agree.same
  good := agree.good
  moves := agree.moves
  yields value result := enough _ value agree.good agree.moves (agree.yields value result)
  faults := agree.faults

theorem pure (good : terms.good store) {value : α} (yielded : yields store value) :
    terms.Agree yields store (pure value) (pure value) where
  same := rfl
  good := good
  moves := terms.refl store
  yields other result := by
    cases result
    exact yielded
  faults fault result := by cases result

theorem throw (good : terms.good store) {fault : Fault} (allowed : terms.faults fault) :
    terms.Agree yields store (throw fault) (throw fault) where
  same := rfl
  good := good
  moves := terms.refl store
  yields value result := by cases result
  faults other result := by
    cases result
    exact allowed

/-- **Agreement goes through a sequence.** -/
theorem bind {next other : α → Eval β} (head : terms.Agree between store first second)
    (rest : ∀ after value, terms.good after → terms.moves store after → between after value →
      terms.Agree ends after (next value) (other value)) :
    terms.Agree ends store (first >>= next) (second >>= other) := by
  have opened := Eval.runFrom_bind first next store
  have openedOther := Eval.runFrom_bind second other store
  rw [head.same] at opened
  obtain ⟨⟨result, after⟩, run⟩ : ∃ outcome, second.runFrom store = outcome := ⟨_, rfl⟩
  have good : terms.good after := by simpa only [run] using head.good
  have moves : terms.moves store after := by simpa only [run] using head.moves
  cases result with
  | ok value =>
    have agree := rest after value good moves
      (by simpa only [run] using head.yields value (by rw [run]))
    simp only [run] at opened openedOther
    constructor
    · rw [opened, openedOther, agree.same]
    · rw [openedOther]
      exact agree.good
    · rw [openedOther]
      exact terms.trans moves agree.moves
    · rw [openedOther]
      exact agree.yields
    · rw [openedOther]
      exact agree.faults
  | error fault =>
    simp only [run] at opened openedOther
    constructor
    · rw [opened, openedOther]
    · rw [openedOther]
      exact good
    · rw [openedOther]
      exact moves
    · intro value yielded
      rw [openedOther] at yielded
      cases yielded
    · intro raised faulted
      rw [openedOther] at faulted
      cases faulted
      exact head.faults _ (by rw [run])

theorem modify {change : Store → Store} (good : terms.good (change store))
    (moves : terms.moves store (change store)) :
    terms.Agree (fun after _ => after = change store) store (modify change) (modify change) where
  same := rfl
  good := good
  moves := moves
  yields _ _ := rfl
  faults fault result := by cases result

theorem modifyGet {change : Store → α × Store} (good : terms.good (change store).2)
    (moves : terms.moves store (change store).2) :
    terms.Agree (fun after value => after = (change store).2 ∧ value = (change store).1) store
      (modifyGet change) (modifyGet change) where
  same := rfl
  good := good
  moves := moves
  yields value result := by
    cases result
    exact ⟨rfl, rfl⟩
  faults fault result := by cases result

theorem get (good : terms.good store) :
    terms.Agree (fun after value => after = store ∧ value = store) store get get where
  same := rfl
  good := good
  moves := terms.refl store
  yields value result := by
    cases result
    exact ⟨rfl, rfl⟩
  faults fault result := by cases result

/-- Something that reads no store, and yields a value or a fault. -/
theorem lift (good : terms.good store) {result : Except Fault α}
    (allowed : ∀ fault, result = .error fault → terms.faults fault) :
    terms.Agree (fun after value => after = store ∧ result = .ok value) store (liftM result)
      (liftM result) where
  same := rfl
  good := by simpa using good
  moves := by simpa using terms.refl store
  yields value found := by
    rw [Eval.runFrom_lift] at found ⊢
    exact ⟨rfl, found⟩
  faults fault found := allowed fault (by simpa using found)

end Agree

end Terms

end Scriptlet
