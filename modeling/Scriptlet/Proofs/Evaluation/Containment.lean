/-
**Signals are contained.**

A runtime error and a returned operand end what is being evaluated. If one of them were bound to a
name or put in an array, it would end whatever reads it later, far from where it arose.

* `Value.SignalFree`, `Store.SignalFree`: there is no signal in a value, or on any scope.
* `Value.Contained`: a signal, if any, is the value itself, and a returned operand has none in it.
* `Moment.Contained`: what is required of every moment of an evaluation.

Main statement: `evaluation_contained`. From a store without signals, for any tree, well formed or
not, and for any callee, every moment is contained, and so is what is left, whether the evaluation
ends in a value, in a signal or in a fault.
-/
import Scriptlet.Proofs.Evaluation.Step
import Scriptlet.Tree.Build
import Scriptlet.Proofs.Value.Held

namespace Scriptlet

/-- There is no signal in a value, nor is it one itself. -/
def Value.SignalFree (value : Value) : Prop :=
  value.Throughout fun inner => inner.isSignal = false

/-- A signal, if any, is the value itself, and a returned operand has none in it. -/
def Value.Contained : Value → Prop
  | .error _ _ => True
  | .returned _ operand => operand.SignalFree
  | value => value.SignalFree

/-- A returned operand on its way to the end of the function. -/
def Value.isReturned : Value → Bool
  | .returned _ _ => true
  | _ => false

/-- No signal is bound on any scope. -/
def Store.SignalFree (store : Store) : Prop :=
  store.Holds Value.SignalFree

/-- At a moment without signals where there must be none: none is bound, arguments have none in them,
and a value yielded has none below itself. -/
def Moment.Contained (moment : Moment) (store : Store) : Prop :=
  store.SignalFree ∧
    match moment with
    | .entered _ _ => True
    | .yielded _ value => value.Contained
    | .applied _ arguments => ∀ argument ∈ arguments, argument.SignalFree

/-- An evaluation has ended with no signal bound and, unless in a fault, with a contained value. -/
def EndsContained (ended : Except Fault Value × Store) : Prop :=
  ended.2.SignalFree ∧ ∀ value, ended.1 = .ok value → value.Contained

/-- An evaluation has not ended with a returned operand. -/
def EndsUnreturned (ended : Except Fault Value × Store) : Prop :=
  ∀ value, ended.1 = .ok value → value.isReturned = false

/-! ### The policy of containment -/

/-- A value without parts that is no signal. -/
theorem Value.SignalFree.of_parts_eq_nil {value : Value} (plain : value.isSignal = false)
    (simple : value.parts = []) : value.SignalFree :=
  Throughout.of_parts_eq_nil plain simple

/-- Any tree may be evaluated on any scope, and any value without signals may be held. -/
def containment : Policy where
  good := Store.SignalFree
  moves _ _ := True
  faults _ := True
  refl _ := trivial
  trans _ _ := trivial
  admits _ _ _ := True
  held _ value := value.SignalFree
  binds _ _ _ := True
  admits_moves _ admitted := admitted
  held_moves _ held := held
  binds_moves _ binds := binds
  bind clean _ held := ⟨clean.bind _ _ held, trivial⟩
  identify clean := ⟨clean, trivial⟩
  print _ clean := ⟨clean, trivial⟩
  enter clean _ := ⟨clean.enclose _, trivial, trivial, fun _ => trivial⟩
  lookup clean found := clean.of_lookup? found
  operand _ _ := trivial
  consumed _ _ := Or.inr fun _ => .of_parts_eq_nil rfl rfl
  named _ _ := trivial
  literal _ _ _ := .of_parts_eq_nil rfl rfl
  function _ _ _ _ := .of_parts_eq_nil rfl rfl
  null := .of_parts_eq_nil rfl rfl
  boolean _ := .of_parts_eq_nil rfl rfl
  builtin _ := .of_parts_eq_nil rfl rfl
  string _ _ := .of_parts_eq_nil rfl rfl
  wrapped _ := .of_parts_eq_nil rfl rfl
  measured _ := .of_parts_eq_nil rfl rfl
  array _ _ each := .array rfl each
  hash _ _ each := .hash rfl each
  element held member := held.part _ member
  returned held := held.part _ List.mem_cons_self
  division := trivial
  nesting := trivial
  flaw _ _ := trivial
  inspect _ _ := trivial

namespace containment

variable {store : Store} {value : Value}

theorem contained_of_signalFree (clean : value.SignalFree) : value.Contained := by
  cases value with
  | error => trivial
  | returned => exact clean.part _ List.mem_cons_self
  | _ => exact clean

theorem isReturned_of_signalFree (clean : value.SignalFree) : value.isReturned = false := by
  cases value with
  | returned =>
    have plain := clean.here
    simp [Value.isSignal] at plain
  | _ => rfl

theorem contained_of_settles (settled : containment.Settles store value) : value.Contained := by
  cases settled with
  | held clean => exact contained_of_signalFree clean
  | error => trivial

theorem isReturned_of_settles (settled : containment.Settles store value) :
    value.isReturned = false := by
  cases settled with
  | held clean => exact isReturned_of_signalFree clean
  | error => rfl

theorem contained_of_yields {tree : Tree} (yielded : containment.Yields tree store value) :
    value.Contained := by
  cases yielded with
  | settled settled => exact contained_of_settles settled
  | returned _ _ clean => exact clean
  | nothing => exact .of_parts_eq_nil rfl rfl

theorem isReturned_of_yields {tree : Tree} (yielded : containment.Yields tree store value)
    (program : tree.label? = some .program) : value.isReturned = false := by
  cases yielded with
  | settled settled => exact isReturned_of_settles settled
  | returned _ inner => exact absurd program inner
  | nothing => rfl

/-- The moments that the policy allows are contained. -/
theorem contained_of_allows (moment : Moment) (store : Store)
    (allowed : containment.Allows moment store) : moment.Contained store := by
  cases moment with
  | entered => exact ⟨allowed.1, trivial⟩
  | yielded => exact ⟨allowed.1, contained_of_yields allowed.2⟩
  | applied => exact ⟨allowed.1, allowed.2.2⟩

theorem tagOf_agree (clean : store.SignalFree) (value : Value) :
    containment.toTerms.Agree (fun _ _ => True) store (Eval.tagOf value) (Eval.tagOf value) := by
  unfold Eval.tagOf
  split
  · exact .pure clean trivial
  · exact .throw clean trivial

/-- Any callee at all may be applied: one that the policy does not hold is no function. -/
theorem apply_agree (alarm : Fault) (limit : Nat) (clean : store.SignalFree) (callee : Value)
    {arguments : List Value} (each : ∀ argument ∈ arguments, argument.SignalFree) :
    containment.Agree store (applyWatched Moment.Contained alarm limit callee arguments)
      (apply limit callee arguments) := by
  cases callee with
  | function | builtin =>
    exact Policy.apply_agree alarm contained_of_allows limit clean (.of_parts_eq_nil rfl rfl) each
  | _ =>
    refine .watched _ alarm ⟨clean, each⟩ ?_
    exact .bind (tagOf_agree clean _) fun _ _ good _ _ => Policy.complain_agree good _

end containment

/-! ### Main statement -/

/-- **Signals are contained.** From a store with no signal on any scope, for every limit: the
evaluation of any tree on any scope meets only contained moments and ends contained, and a program
does not end with a returned operand; the application of any callee to any arguments without signals
does the same, and does not end with a returned operand. -/
theorem evaluation_contained (limit : Nat) {store : Store} (clean : store.SignalFree) :
    (∀ tree scope, AlwaysEvaluating Moment.Contained limit tree scope store ∧
      EndsContained ((evaluate limit tree scope).runFrom store) ∧
      (tree.label? = some .program →
        EndsUnreturned ((evaluate limit tree scope).runFrom store))) ∧
    (∀ callee arguments, (∀ argument ∈ arguments, argument.SignalFree) →
      AlwaysApplying Moment.Contained limit callee arguments store ∧
      EndsContained ((apply limit callee arguments).runFrom store) ∧
      EndsUnreturned ((apply limit callee arguments).runFrom store)) := by
  constructor
  · intro tree scope
    have agree : ∀ alarm, containment.toTerms.Agree (containment.Yields tree) store
        (evaluateWatched Moment.Contained alarm limit tree scope) (evaluate limit tree scope) :=
      fun alarm => Policy.evaluate_agree alarm containment.contained_of_allows limit clean trivial
    have kept := agree .valueMissing
    refine ⟨fun alarm => (agree alarm).same, ⟨kept.good, fun value ended => ?_⟩, ?_⟩
    · exact containment.contained_of_yields (kept.yields value ended)
    · intro program value ended
      exact containment.isReturned_of_yields (kept.yields value ended) program
  · intro callee arguments each
    have agree := fun alarm => containment.apply_agree alarm limit clean callee each
    have kept := agree .valueMissing
    refine ⟨fun alarm => (agree alarm).same, ⟨kept.good, fun value ended => ?_⟩, ?_⟩
    · exact containment.contained_of_settles (kept.yields value ended)
    · intro value ended
      exact containment.isReturned_of_settles (kept.yields value ended)

/-- A function that returns a bound array leaves it as it is, and the call takes it out. -/
theorem evaluation_contained_returning :
    let store := Store.initial.bind Store.root "held" (.array 0 [.null])
    let body := Build.block [Build.returning (Build.identifier "held")]
    let callee := Value.function 1 ["item"] body Store.root
    store.SignalFree ∧
      EndsContained ((evaluate 9 body Store.root).runFrom store) ∧
      AlwaysApplying Moment.Contained 9 callee [.integer 3] store ∧
      EndsUnreturned ((apply 9 callee [.integer 3]).runFrom store) := by
  intro store body callee
  have elements : ∀ element ∈ [Value.null], element.SignalFree := by
    intro element member
    rw [List.mem_singleton.mp member]
    exact .of_parts_eq_nil rfl rfl
  have clean : store.SignalFree :=
    Store.Holds.initial.bind Store.root "held" (Value.Throughout.array rfl elements)
  have argumentsClean : ∀ argument ∈ [Value.integer 3], argument.SignalFree := by
    intro argument member
    rw [List.mem_singleton.mp member]
    exact .of_parts_eq_nil rfl rfl
  have trees := (evaluation_contained 9 clean).1 body Store.root
  have calls := (evaluation_contained 9 clean).2 callee [.integer 3] argumentsClean
  exact ⟨clean, trees.2.1, calls.1, calls.2.2⟩

end Scriptlet
