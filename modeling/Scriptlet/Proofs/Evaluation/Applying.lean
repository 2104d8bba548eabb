/-
**Applications.**

* `counting`: identities are given out, and never taken back.
* `Store.Kept`: the scopes of a store are as they were, and no identity is taken back.

Main statements: `apply_kept`, an application keeps the store, whatever it ends in; `apply_contained`,
it yields no returned operand; `apply_extends`, a larger limit goes on where a smaller one is exhausted;
`AlwaysApplying.of_larger`, an application that yields a value meets only permitted moments if it does so
within a larger limit.
-/
import Scriptlet.Proofs.Evaluation.Containment
import Scriptlet.Proofs.Evaluation.Frame
import Scriptlet.Proofs.Evaluation.InTurn

namespace Scriptlet

/-! ### What an application keeps -/

/-- The same as for growth, but no identity is taken back. -/
def counting : Policy :=
  { growth with
    moves := fun before after => before.identities ≤ after.identities
    refl := fun _ => Nat.le_refl _
    trans := Nat.le_trans
    admits_moves := fun _ _ => trivial
    held_moves := fun _ _ => trivial
    binds_moves := fun _ _ => trivial
    bind := fun _ _ _ => ⟨trivial, Nat.le_refl _⟩
    identify := fun _ => ⟨trivial, Nat.le_succ _⟩
    print := fun _ _ => ⟨trivial, Nat.le_refl _⟩
    enter := fun _ _ => ⟨trivial, Nat.le_refl _, trivial, fun _ => trivial⟩ }

theorem counting_isOpen : counting.Open :=
  ⟨fun _ => trivial, fun _ _ _ => trivial, fun _ _ => trivial, fun _ _ _ => trivial⟩

/-- The scopes of a store are as they were, and no identity is taken back. -/
structure Store.Kept (before after : Store) : Prop where
  scopes : ∀ id < before.scopes.size, after.scopes[id]? = before.scopes[id]?
  identities : before.identities ≤ after.identities

namespace Store.Kept

variable {first second third : Store}

/-- No scope is gone. -/
theorem size_le (kept : first.Kept second) : first.scopes.size ≤ second.scopes.size := by
  refine Nat.le_of_not_lt fun less => ?_
  have same := kept.scopes _ less
  rw [Array.getElem?_eq_getElem less, Array.getElem?_eq_none (Nat.le_refl _)] at same
  cases same

theorem refl (store : Store) : store.Kept store :=
  ⟨fun _ _ => rfl, Nat.le_refl _⟩

theorem trans (start : first.Kept second) (rest : second.Kept third) : first.Kept third where
  scopes id inside :=
    (rest.scopes id (Nat.lt_of_lt_of_le inside start.size_le)).trans (start.scopes id inside)
  identities := Nat.le_trans start.identities rest.identities

end Store.Kept

theorem Store.kept_identify (store : Store) : store.Kept store.identify.2 :=
  ⟨fun _ _ => rfl, Nat.le_succ _⟩

section Applications

variable {limit : Nat} {callee : Value} {arguments : List Value} {store : Store}

/-- **An application keeps the store.** -/
theorem apply_kept (limit : Nat) (callee : Value) (arguments : List Value) (store : Store) :
    store.Kept ((apply limit callee arguments).runFrom store).2 where
  scopes id inside := by
    have agree : (framing (fun _ _ => False) store).Agree store
        (applyWatched (fun _ => store.Framed fun _ _ => False) .valueMissing limit callee arguments)
        (apply limit callee arguments) :=
      Policy.apply_agree _ framing.framed_of_allows limit (.refl _ store) trivial fun _ _ => trivial
    have framed : store.Framed (fun _ _ => False) _ := agree.good
    exact framed.unwritten inside fun _ written => written
  identities := counting_isOpen.apply_moves limit callee arguments store

/-- Where there are no signals, an application leaves none, and what it yields is no returned
operand. -/
theorem apply_contained (limit : Nat) (clean : store.SignalFree) (callee : Value)
    (each : ∀ argument ∈ arguments, argument.SignalFree) :
    ((apply limit callee arguments).runFrom store).2.SignalFree ∧
      ∀ value, ((apply limit callee arguments).runFrom store).1 = .ok value →
        value.isReturned = false ∧ (value.isSignal = false → value.SignalFree) := by
  have agree := containment.apply_agree .valueMissing limit clean callee each
  refine ⟨agree.good, fun value ended => ?_⟩
  have settled := agree.yields value ended
  exact ⟨containment.isReturned_of_settles settled, settled.held_of_isSignal_eq_false⟩

end Applications

/-! ### Other limits -/

/-- Application within a larger limit extends application within a smaller one. -/
theorem apply_extends {limit more : Nat} (within : limit ≤ more) (callee : Value)
    (arguments : List Value) :
    Eval.Extends (apply limit callee arguments) (apply more callee arguments) := by
  obtain ⟨further, rfl⟩ := Nat.exists_eq_add_of_le within
  have alarmed := Eval.call_alarmed (@evaluateBeyond_alarmed (.levels further)
    (evaluate_grows further) limit) ((Beyond.levels further).inspectFrom_alarmed limit) callee
    arguments
  have extended := alarmed.extends
  rwa [evaluateBeyond_levels, evaluateBeyond_nestingTooDeep, Beyond.inspectFrom_levels] at extended

section Watched

open Eval

variable {permits : Moment → Store → Prop} {alarm : Fault} {limit more : Nat} {callee : Value}
  {arguments : List Value} {store after : Store} {value : Value}

/-- A moment that is watched changes nothing. -/
theorem Eval.Alarmed.watch (aftermath : Aftermath) (moment : Moment) :
    Alarmed aftermath (fun _ => Eval.watch permits alarm moment) (Eval.watch permits alarm moment) := by
  refine .quiet fun store => ?_
  by_cases permitted : permits moment store
  · rw [runFrom_watch_of_permits permitted]
    exact aftermath.policy.refl store
  · rw [runFrom_watch_of_not_permits permitted]
    exact aftermath.policy.refl store

/-- Watched evaluations with more levels to go, where something else is done when no level is left. -/
theorem evaluateWatched_levels {aftermath : Aftermath}
    (last : ∀ tree scope, Alarmed aftermath (fun _ => evaluateWatched permits alarm 0 tree scope)
      (evaluateWatched permits alarm aftermath.more tree scope)) (limit : Nat) (tree : Tree)
    (scope : ScopeId) :
    Alarmed aftermath (fun _ => evaluateWatched permits alarm limit tree scope)
      (evaluateWatched permits alarm (limit + aftermath.more) tree scope) := by
  induction limit generalizing tree scope with
  | zero =>
    rw [Nat.zero_add]
    exact last tree scope
  | succ limit ih =>
    have applies : ∀ callee arguments, Alarmed aftermath
        (fun _ => callWatched permits alarm (Value.inspectWithin limit)
          (evaluateWatched permits alarm limit) callee arguments)
        (callWatched permits alarm (Value.inspectWithin (limit + aftermath.more))
          (evaluateWatched permits alarm (limit + aftermath.more)) callee arguments) :=
      fun callee arguments => (Alarmed.watch aftermath _).bind fun _ =>
        call_alarmed ih (inspectWithin_alarmed limit) callee arguments
    rw [Nat.add_right_comm]
    exact (Alarmed.watch aftermath _).bind fun _ => (step_alarmed ih applies tree).bind fun value =>
      (Alarmed.watch aftermath _).bind fun _ => .pure value

/-- A watched evaluation takes back nothing that has been printed. -/
theorem evaluateWatched_grows (limit : Nat) (tree : Tree) (scope : ScopeId) :
    Grows (evaluateWatched permits alarm limit tree scope) :=
  (@evaluateWatched_levels permits alarm printing (fun _ _ => .throw _) limit tree scope).moves

/-- **A watched application within a larger limit goes on where a smaller one is exhausted.** -/
theorem applyWatched_larger (permits : Moment → Store → Prop) (alarm : Fault) (limit more : Nat)
    (callee : Value) (arguments : List Value) (store : Store) :
    (applyWatched permits alarm limit callee arguments).runFrom store =
        (applyWatched permits alarm (limit + more) callee arguments).runFrom store ∨
      ((applyWatched permits alarm limit callee arguments).runFrom store).1 =
        .error .nestingTooDeep := by
  by_cases same : more = 0
  · rw [same]
    exact Or.inl rfl
  · have last : ∀ tree scope, Alarmed { printing with more := more }
        (fun _ => evaluateWatched permits alarm 0 tree scope)
        (evaluateWatched permits alarm more tree scope) :=
      fun tree scope => .exhausted (evaluateWatched_grows more tree scope) same
    have alarmed : Alarmed { printing with more := more }
        (fun _ => applyWatched permits alarm limit callee arguments)
        (applyWatched permits alarm (limit + more) callee arguments) :=
      (Alarmed.watch _ _).bind fun _ => call_alarmed (evaluateWatched_levels last limit)
        (inspectWithin_alarmed limit) callee arguments
    cases alarmed.meets store with
    | alike alike => exact Or.inl (alike .valueMissing)
    | stopped stopped =>
      -- one evaluation cannot end in two alarms
      cases (stopped .valueMissing).symm.trans (stopped .divisionByZero)
    | exhausted _ exhausted => exact Or.inr (congrArg Prod.fst (exhausted .valueMissing))

/-- Every moment of an application is permitted, or it is stopped in whatever alarm. -/
theorem alwaysApplying_or_stopped (permits : Moment → Store → Prop) (limit : Nat) (callee : Value)
    (arguments : List Value) (store : Store) :
    AlwaysApplying permits limit callee arguments store ∨
      ∃ reached, ∀ alarm, (applyWatched permits alarm limit callee arguments).runFrom store =
        (.error alarm, reached) := by
  have covers := printing_covers permits
  have alarmed := Eval.watched_alarmed (call_alarmed (evaluateWatched_alarmed covers limit)
    (inspectWithin_alarmed limit) callee
    arguments) fun _ refused => covers.applied refused limit
  cases alarmed.meets store with
  | alike always => exact Or.inl always
  | stopped stopped => exact Or.inr ⟨_, stopped⟩
  | exhausted larger => exact absurd rfl larger

/-- **An application that yields a value meets only permitted moments if it does so within a larger
limit.** -/
theorem AlwaysApplying.of_larger (within : limit ≤ more)
    (always : AlwaysApplying permits more callee arguments store)
    (ran : (apply limit callee arguments).runFrom store = (.ok value, after)) :
    AlwaysApplying permits limit callee arguments store := by
  rcases alwaysApplying_or_stopped permits limit callee arguments store with always' | ⟨_, stopped⟩
  · exact always'
  · obtain ⟨further, rfl⟩ := Nat.exists_eq_add_of_le within
    have longer : (apply (limit + further) callee arguments).runFrom store = (.ok value, after) := by
      rw [(apply_extends within callee arguments).runFrom_eq (by rw [ran]; simp), ran]
    have stopped := stopped .divisionByZero
    rcases applyWatched_larger permits .divisionByZero limit further callee arguments store with
      same | deep
    · cases stopped.symm.trans (same.trans ((always .divisionByZero).trans longer))
    · rw [stopped] at deep
      cases deep

end Watched

end Scriptlet
