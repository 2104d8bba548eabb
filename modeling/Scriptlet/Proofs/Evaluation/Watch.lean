/-
**Evaluations watched at every moment.**

A result says nothing of the states that an evaluation goes through. To speak of them, the
evaluation is stopped at a moment of one's choice:

* `Moment`: a tree is entered on a scope, a tree has yielded a value, or a callee is applied to
  arguments.
* `evaluateWatched`, `applyWatched`: the evaluation that ends with an alarm at the first moment that
  is not permitted, given the store of that moment. It takes the same steps as `evaluate`.
* `AlwaysEvaluating`, `AlwaysApplying`: only permitted moments are met. Whatever the alarm, the
  watched evaluation does what the evaluation itself does.
-/
import Scriptlet.Proofs.Evaluation.Terms

namespace Scriptlet

/-- A moment of an evaluation. -/
inductive Moment where
  /-- A tree is entered on a scope. -/
  | entered (tree : Tree) (scope : ScopeId)
  /-- A tree has yielded a value. -/
  | yielded (tree : Tree) (value : Value)
  /-- A callee is applied to arguments. -/
  | applied (callee : Value) (arguments : List Value)

noncomputable section

variable (permits : Moment → Store → Prop) (alarm : Fault)

open Classical in
/-- An alarm, unless the moment is permitted. -/
def Eval.watch (moment : Moment) : Eval Unit := do
  if permits moment (← get) then return () else throw alarm

section Watch

variable {permits alarm} {moment : Moment} {store : Store}

/-- A permitted moment passes without a change. -/
theorem Eval.runFrom_watch_of_permits (permitted : permits moment store) :
    (Eval.watch permits alarm moment).runFrom store = (.ok (), store) := by
  rw [Eval.watch, Eval.runFrom_bind, Eval.runFrom_get]
  simp [permitted]

/-- Any other moment ends the evaluation in the alarm. -/
theorem Eval.runFrom_watch_of_not_permits (refused : ¬ permits moment store) :
    (Eval.watch permits alarm moment).runFrom store = (.error alarm, store) := by
  rw [Eval.watch, Eval.runFrom_bind, Eval.runFrom_get]
  simp [refused]

/-- A moment that is permitted in every store is passed by. -/
theorem Eval.watch_of_forall (permitted : ∀ store, permits moment store) :
    Eval.watch permits alarm moment = pure () :=
  funext fun store => Eval.runFrom_watch_of_permits (permitted store)

end Watch

/-- Where a moment is permitted, what agrees without it being watched agrees. -/
theorem Terms.Agree.watched {α : Type} {terms : Terms} {yields : Store → α → Prop} {store : Store}
    {moment : Moment} (permitted : permits moment store) {next : Unit → Eval α} {other : Eval α}
    (agree : terms.Agree yields store (next ()) other) :
    terms.Agree yields store (Eval.watch permits alarm moment >>= next) other := by
  refine ⟨?_, agree.good, agree.moves, agree.yields, agree.faults⟩
  rw [Eval.runFrom_bind, Eval.runFrom_watch_of_permits permitted]
  exact agree.same

/-- What a callee yields for its arguments, with an alarm if the call is not permitted. -/
def Eval.callWatched (inspect : Value → Except Fault String)
    (evaluate : Tree → ScopeId → Eval Value) (callee : Value) (arguments : List Value) :
    Eval Value := do
  Eval.watch permits alarm (.applied callee arguments)
  Eval.call inspect evaluate callee arguments

/-- What a tree yields on a scope, with an alarm at the first moment that is not permitted. -/
def evaluateWatched : (limit : Nat) → Tree → ScopeId → Eval Value
  | 0, _, _ => throw .nestingTooDeep
  | limit + 1, tree, scope => do
    Eval.watch permits alarm (.entered tree scope)
    let value ← Eval.step (evaluateWatched limit)
      (Eval.callWatched permits alarm (Value.inspectWithin limit) (evaluateWatched limit)) scope tree
    Eval.watch permits alarm (.yielded tree value)
    return value

/-- What a callee yields for its arguments, with an alarm at the first moment that is not
permitted. -/
def applyWatched (limit : Nat) (callee : Value) (arguments : List Value) : Eval Value :=
  Eval.callWatched permits alarm (Value.inspectWithin limit) (evaluateWatched permits alarm limit)
    callee arguments

/-- **One level of watched evaluation** agrees with one that is not watched, where the tree may be
entered and what it yields may be yielded. -/
theorem Terms.Agree.level {terms : Terms} {yields : Store → Value → Prop} {store : Store}
    {limit : Nat} {tree : Tree} {scope : ScopeId} (entered : permits (.entered tree scope) store)
    (yielded : ∀ after value, terms.good after → yields after value →
      permits (.yielded tree value) after)
    (agree : terms.Agree yields store
      (Eval.step (evaluateWatched permits alarm limit)
        (Eval.callWatched permits alarm (Value.inspectWithin limit)
          (evaluateWatched permits alarm limit)) scope tree)
      (Eval.step (evaluate limit) (Eval.call (Value.inspectWithin limit) (evaluate limit)) scope
        tree)) :
    terms.Agree yields store (evaluateWatched permits alarm (limit + 1) tree scope)
      (evaluate (limit + 1) tree scope) := by
  refine .watched permits alarm entered ?_
  rw [evaluate, ← bind_pure (Eval.step (evaluate limit) _ scope tree)]
  refine agree.bind fun after value good _ made => ?_
  exact .watched permits alarm (yielded after value good made) (.pure good made)

/-- An evaluation in which everything is permitted is not stopped. -/
theorem evaluateWatched_true (limit : Nat) :
    evaluateWatched (fun _ _ => True) alarm limit = evaluate limit := by
  have passes : ∀ moment, Eval.watch (fun _ _ => True) alarm moment = pure () :=
    fun _ => Eval.watch_of_forall fun _ => trivial
  induction limit with
  | zero => rfl
  | succ limit ih =>
    funext tree scope
    have calls : Eval.callWatched (fun _ _ => True) alarm (Value.inspectWithin limit)
        (evaluate limit) = Eval.call (Value.inspectWithin limit) (evaluate limit) := by
      funext callee arguments
      rw [Eval.callWatched, passes, pure_bind]
    simp only [evaluateWatched, ih, calls, passes, pure_bind, bind_pure]
    rfl

end

/-- Every moment of the evaluation of a tree is permitted. -/
def AlwaysEvaluating (permits : Moment → Store → Prop) (limit : Nat) (tree : Tree)
    (scope : ScopeId) (store : Store) : Prop :=
  ∀ alarm, (evaluateWatched permits alarm limit tree scope).runFrom store =
    (evaluate limit tree scope).runFrom store

/-- No evaluation is stopped where everything is permitted. -/
theorem alwaysEvaluating_true (limit : Nat) (tree : Tree) (scope : ScopeId) (store : Store) :
    AlwaysEvaluating (fun _ _ => True) limit tree scope store :=
  fun alarm => by rw [evaluateWatched_true]

/-- Every moment of the application of a callee is permitted. -/
def AlwaysApplying (permits : Moment → Store → Prop) (limit : Nat) (callee : Value)
    (arguments : List Value) (store : Store) : Prop :=
  ∀ alarm, (applyWatched permits alarm limit callee arguments).runFrom store =
    (apply limit callee arguments).runFrom store

end Scriptlet
