/-
**Evaluations that an alarm may stop.**

An evaluation may be stopped at a moment: where a moment is not permitted, or where a limit is
exhausted. What it would have done from there on is not lost to sight, for the evaluation that is
not stopped goes on from the store of that moment.

* `Policy.Open`: a policy that asks nothing of trees, values and stores, and says only how a store
  may change.
* `Aftermath`: what may become of an evaluation, with so many more levels to go, after a moment at
  which it could have been stopped.
* `Eval.Alarmed`: whatever the alarm, an evaluation does what another one does, or it stops in the
  alarm and the other one ends in the aftermath, or its limit is exhausted and is the smaller one.

Main statements: `Eval.Alarmed.bind`, alarms go through a sequence of evaluations; `Eval.step_alarmed`
and `Eval.call_alarmed`, through one level of evaluation and through calls; from them, by induction
on the limit, `evaluateWatched_alarmed`. An evaluation that is watched meets permitted moments only,
or it stops at the first other one (`always_or_stopped`), and then the one with more levels to go
ends in the aftermath as well (`StoppedAt.follows`).
-/
import Scriptlet.Proofs.Evaluation.Step

namespace Scriptlet

variable {α β : Type}

/-- A policy that asks nothing of trees, values and stores, and says only how a store may change. -/
structure Policy.Open (policy : Policy) : Prop where
  good : ∀ store, policy.good store
  admits : ∀ store scope tree, policy.admits store scope tree
  held : ∀ store value, policy.held store value
  binds : ∀ store scope name, policy.binds store scope name

/-- The fault in which an evaluation has ended, if any. -/
def Eval.fault? : Except Fault α → Option Fault
  | .error fault => some fault
  | .ok _ => none

/-- What may become of an evaluation after a moment: the store of the moment, the fault in which the
evaluation ends, if any, and the store that it leaves. Without a fault, it may go on. Its limit is by
so much larger than that of the evaluation which is stopped at the moment. -/
structure Aftermath where
  policy : Policy
  isOpen : policy.Open
  more : Nat
  ends : Store → Option Fault → Store → Prop
  onward : ∀ {reached middle last fault?}, ends reached none middle → policy.moves middle last →
    ends reached fault? last

/-- The end of an evaluation is in the aftermath of the moment at which a store is reached. -/
def Aftermath.Follows (aftermath : Aftermath) (reached : Store) (ended : Except Fault α × Store) :
    Prop :=
  aftermath.ends reached (Eval.fault? ended.1) ended.2

namespace Eval

variable {aftermath : Aftermath}

/-- What becomes of two evaluations from a store: whatever the alarm, the first does what the second
does, or it stops in the alarm and the end of the second is in the aftermath, or it exhausts a limit
that is smaller than that of the second. -/
inductive Meets (aftermath : Aftermath) (first : Fault → Eval α) (second : Eval α) (store : Store) :
    Prop
  | alike : (∀ alarm, (first alarm).runFrom store = second.runFrom store) →
      Meets aftermath first second store
  | stopped {reached : Store} : (∀ alarm, (first alarm).runFrom store = (.error alarm, reached)) →
      aftermath.Follows reached (second.runFrom store) → Meets aftermath first second store
  | exhausted {reached : Store} : aftermath.more ≠ 0 →
      (∀ alarm, (first alarm).runFrom store = (.error .nestingTooDeep, reached)) →
      Meets aftermath first second store

/-- Only the runs count. -/
theorem Meets.congr {first first' : Fault → Eval α} {second second' : Eval α} {store store' : Store}
    (met : Meets aftermath first second store)
    (same : ∀ alarm, (first' alarm).runFrom store' = (first alarm).runFrom store)
    (same' : second'.runFrom store' = second.runFrom store) :
    Meets aftermath first' second' store' := by
  cases met with
  | alike alike => exact .alike fun alarm => (same alarm).trans ((alike alarm).trans same'.symm)
  | stopped stopped follows =>
    exact .stopped (fun alarm => (same alarm).trans (stopped alarm)) (same' ▸ follows)
  | exhausted larger exhausted =>
    exact .exhausted larger fun alarm => (same alarm).trans (exhausted alarm)

/-- The first evaluation may be stopped in any alarm, beside the second one. -/
structure Alarmed (aftermath : Aftermath) (first : Fault → Eval α) (second : Eval α) : Prop where
  moves : ∀ store, aftermath.policy.moves store (second.runFrom store).2
  meets : ∀ store, Meets aftermath first second store

namespace Alarmed

variable {first : Fault → Eval α} {second : Eval α}

/-- An evaluation without alarms. -/
theorem quiet (moves : ∀ store, aftermath.policy.moves store (second.runFrom store).2) :
    Alarmed aftermath (fun _ => second) second :=
  ⟨moves, fun _ => .alike fun _ => rfl⟩

/-- What keeps to the policy of the aftermath is an evaluation without alarms. -/
theorem of_agree {evaluation : Eval Value}
    (agree : ∀ store, aftermath.policy.Agree store evaluation evaluation) :
    Alarmed aftermath (fun _ => evaluation) evaluation :=
  quiet fun store => (agree store).moves

/-- Any alarm in place of an evaluation whose end is in the aftermath. -/
theorem stopped (moves : ∀ store, aftermath.policy.moves store (second.runFrom store).2)
    (follows : ∀ store, aftermath.Follows store (second.runFrom store)) :
    Alarmed aftermath (fun alarm => throw alarm) second :=
  ⟨moves, fun store => .stopped (fun _ => rfl) (follows store)⟩

/-- An exhausted limit in place of an evaluation with a larger one. -/
theorem exhausted (moves : ∀ store, aftermath.policy.moves store (second.runFrom store).2)
    (larger : aftermath.more ≠ 0) : Alarmed aftermath (fun _ => throw .nestingTooDeep) second :=
  ⟨moves, fun _ => .exhausted larger fun _ => rfl⟩

theorem pure (value : α) : Alarmed aftermath (fun _ => pure value) (pure value) :=
  quiet fun store => aftermath.policy.refl store

theorem throw (fault : Fault) :
    Alarmed aftermath (fun _ => (throw fault : Eval α)) (throw fault) :=
  quiet fun store => aftermath.policy.refl store

theorem lift (result : Except Fault α) :
    Alarmed aftermath (fun _ => (liftM result : Eval α)) (liftM result) := by
  cases result with
  | ok value => exact pure value
  | error fault => exact throw fault

theorem identified (make : Nat → Value) :
    Alarmed aftermath (fun _ => identified make) (identified make) :=
  quiet fun store => (aftermath.policy.identify (aftermath.isOpen.good store)).2

/-- **Alarms go through a sequence.** Where the first evaluation of one sequence is stopped, that of
the other goes on, and the rest of it only moves on. -/
theorem bind (head : Alarmed aftermath first second) {next : Fault → α → Eval β}
    {other : α → Eval β}
    (rest : ∀ value, Alarmed aftermath (fun alarm => next alarm value) (other value)) :
    Alarmed aftermath (fun alarm => first alarm >>= next alarm) (second >>= other) := by
  constructor
  · intro store
    have moved := head.moves store
    obtain ⟨⟨result, after⟩, run⟩ : ∃ outcome, second.runFrom store = outcome := ⟨_, rfl⟩
    rw [run] at moved
    cases result with
    | ok value =>
      rw [runFrom_bind_of_ok run]
      exact aftermath.policy.trans moved ((rest value).moves after)
    | error fault =>
      rw [runFrom_bind_of_error run]
      exact moved
  · intro store
    have met := head.meets store
    obtain ⟨⟨result, after⟩, run⟩ : ∃ outcome, second.runFrom store = outcome := ⟨_, rfl⟩
    cases met with
    | alike same =>
      simp only [run] at same
      cases result with
      | error fault =>
        exact .alike fun alarm => (runFrom_bind_of_error (same alarm) (next alarm)).trans
          (runFrom_bind_of_error run other).symm
      | ok value =>
        exact ((rest value).meets after).congr
          (fun alarm => runFrom_bind_of_ok (same alarm) (next alarm)) (runFrom_bind_of_ok run other)
    | stopped stopped follows =>
      refine .stopped (fun alarm => runFrom_bind_of_error (stopped alarm) (next alarm)) ?_
      rw [run] at follows
      cases result with
      | error fault =>
        rw [runFrom_bind_of_error run]
        exact follows
      | ok value =>
        rw [runFrom_bind_of_ok run]
        exact aftermath.onward follows ((rest value).moves after)
    | exhausted larger exhausted =>
      exact .exhausted larger fun alarm => runFrom_bind_of_error (exhausted alarm) (next alarm)

/-- A signal ends both evaluations alike. -/
theorem unlessSignal (value : Value) {rest : Fault → Eval Value} {rest' : Eval Value}
    (follows : Alarmed aftermath rest rest') :
    Alarmed aftermath (fun alarm => unlessSignal value (rest alarm)) (unlessSignal value rest') := by
  unfold Eval.unlessSignal
  cases value.isSignal with
  | true => exact pure value
  | false => exact follows

end Alarmed

/-! ### Texts and builtins -/

section Texts

variable {inspect : Fault → Value → Except Fault String} {inspect' : Value → Except Fault String}
  (inspects : ∀ value,
    Alarmed aftermath (fun alarm => (liftM (inspect alarm value) : Eval String))
      (liftM (inspect' value)))

omit inspects in
/-- The texts within a limit are those within a larger one, or exhaust it. -/
theorem inspectWithin_alarmed (limit : Nat) (value : Value) :
    Alarmed aftermath (fun _ => (liftM (value.inspectWithin limit) : Eval String))
      (liftM (value.inspectWithin (limit + aftermath.more))) := by
  by_cases same : aftermath.more = 0
  · rw [same]
    exact .lift _
  · by_cases fits : value.depth ≤ limit
    · rw [Value.inspectWithin, Value.inspectWithin, if_pos fits,
        if_pos (Nat.le_add_right_of_le fits)]
      exact .lift _
    · rw [Value.inspectWithin, if_neg fits]
      exact .exhausted (Alarmed.lift _).moves same

include inspects

theorem printAll_alarmed (values : List Value) :
    Alarmed aftermath (fun alarm => printAll (inspect alarm) values) (printAll inspect' values) := by
  induction values with
  | nil => exact .pure _
  | cons value rest ih =>
    refine (inspects value).bind fun text => .bind (.quiet fun store => ?_) fun _ => ih
    exact (aftermath.policy.print text (aftermath.isOpen.good store)).2

/-- A builtin may be stopped at the text of a value that it prints. -/
theorem callBuiltin_alarmed (builtin : Builtin) (arguments : List Value) :
    Alarmed aftermath (fun alarm => callBuiltin (inspect alarm) builtin arguments)
      (callBuiltin inspect' builtin arguments) := by
  by_cases prints : builtin = .puts
  · subst prints
    exact (printAll_alarmed inspects arguments).bind fun _ => .pure _
  · -- nothing else makes use of texts
    have same : ∀ texts, callBuiltin texts builtin arguments =
        callBuiltin (Value.inspectWithin 0) builtin arguments := by
      intro texts
      unfold callBuiltin
      split <;> first | rfl | exact absurd rfl prints
    simp only [same]
    exact .of_agree fun store => Policy.callBuiltin_agree (aftermath.policy.inspects_within 0)
      (aftermath.isOpen.good store) _ fun _ _ => aftermath.isOpen.held ..

end Texts

/-! ### One level of evaluation -/

section Step

variable {evaluate : Fault → Tree → ScopeId → Eval Value} {evaluate' : Tree → ScopeId → Eval Value}
  {apply : Fault → Value → List Value → Eval Value} {apply' : Value → List Value → Eval Value}
  {scope : ScopeId}
  (evaluates : ∀ tree scope,
    Alarmed aftermath (fun alarm => evaluate alarm tree scope) (evaluate' tree scope))
  (applies : ∀ callee arguments,
    Alarmed aftermath (fun alarm => apply alarm callee arguments) (apply' callee arguments))

include evaluates

theorem statements_alarmed (last : Value) (parts : List Tree) :
    Alarmed aftermath (fun alarm => statements (evaluate alarm) scope last parts)
      (statements evaluate' scope last parts) := by
  induction parts generalizing last with
  | nil => exact .pure last
  | cons part rest ih =>
    exact (evaluates part scope).bind fun value => .unlessSignal value (ih value)

theorem values_alarmed (parts : List Tree) :
    Alarmed aftermath (fun alarm => values (evaluate alarm) scope parts)
      (values evaluate' scope parts) := by
  induction parts with
  | nil => exact .pure _
  | cons part rest ih =>
    refine (evaluates part scope).bind fun value => ?_
    cases value.isSignal with
    | true => exact .pure _
    | false => exact ih.bind fun result => by cases result <;> exact .pure _

theorem firstPart_alarmed (parts : List Tree) :
    Alarmed aftermath (fun alarm => firstPart (evaluate alarm) scope parts)
      (firstPart evaluate' scope parts) := by
  cases parts with
  | nil => exact .throw _
  | cons part rest => exact evaluates part scope

theorem binding_alarmed (parts : List Tree) :
    Alarmed aftermath (fun alarm => binding (evaluate alarm) scope parts)
      (binding evaluate' scope parts) := by
  unfold binding
  split
  next name part =>
    refine (evaluates part scope).bind fun value => .unlessSignal value ?_
    refine .bind (.lift _) fun text => .bind (.quiet fun store => ?_) fun _ => .pure _
    exact (aftermath.policy.bind (aftermath.isOpen.good store) (aftermath.isOpen.binds ..)
      (aftermath.isOpen.held ..)).2
  · exact .throw _

theorem returning_alarmed (parts : List Tree) :
    Alarmed aftermath (fun alarm => returning (evaluate alarm) scope parts)
      (returning evaluate' scope parts) :=
  (firstPart_alarmed evaluates parts).bind fun value => .unlessSignal value (.identified _)

theorem unary_alarmed (parts : List Tree) :
    Alarmed aftermath (fun alarm => unary (evaluate alarm) scope parts)
      (unary evaluate' scope parts) := by
  unfold unary
  split
  next operator part =>
    refine (evaluates part scope).bind fun right => .unlessSignal right ?_
    refine .bind (.lift _) fun text => .of_agree fun store => ?_
    exact Policy.applyUnary_agree (aftermath.isOpen.good store) text (aftermath.isOpen.held ..)
  · exact .throw _

theorem binary_alarmed (parts : List Tree) :
    Alarmed aftermath (fun alarm => binary (evaluate alarm) scope parts)
      (binary evaluate' scope parts) := by
  unfold binary
  split
  next first operator second =>
    refine (evaluates first scope).bind fun left => .unlessSignal left ?_
    refine (evaluates second scope).bind fun right => .unlessSignal right ?_
    refine .bind (.lift _) fun text => .of_agree fun store => ?_
    exact Policy.applyBinary_agree (aftermath.isOpen.good store) text (aftermath.isOpen.held ..)
      (aftermath.isOpen.held ..)
  · exact .throw _

theorem index_alarmed (parts : List Tree) :
    Alarmed aftermath (fun alarm => index (evaluate alarm) scope parts)
      (index evaluate' scope parts) := by
  unfold index
  split
  next first second =>
    refine (evaluates first scope).bind fun container => .unlessSignal container ?_
    refine (evaluates second scope).bind fun position => .unlessSignal position ?_
    exact .of_agree fun store =>
      Policy.applyIndex_agree (aftermath.isOpen.good store) (aftermath.isOpen.held ..) position
  · exact .throw _

theorem conditional_alarmed (parts : List Tree) :
    Alarmed aftermath (fun alarm => conditional (evaluate alarm) scope parts)
      (conditional evaluate' scope parts) := by
  have branch : ∀ part, Alarmed aftermath
      (fun alarm => do return (← evaluate alarm part scope).orNull)
      (do return (← evaluate' part scope).orNull) :=
    fun part => (evaluates part scope).bind fun _ => .pure _
  unfold conditional
  split
  next condition consequence rest =>
    refine (evaluates condition scope).bind fun value => .unlessSignal value ?_
    cases value.isTruthy with
    | true => exact branch consequence
    | false =>
      cases rest.headD .absent with
      | absent => exact .pure _
      | node | leaf => exact branch _
  · exact .throw _

theorem array_alarmed (parts : List Tree) :
    Alarmed aftermath (fun alarm => array (evaluate alarm) scope parts)
      (array evaluate' scope parts) := by
  refine (values_alarmed evaluates parts).bind fun result => ?_
  cases result with
  | inl signal => exact .pure signal
  | inr elements => exact .identified _

theorem pairs_alarmed (done : List (Value × Value)) (parts : List Tree) :
    Alarmed aftermath (fun alarm => pairs (evaluate alarm) scope done parts)
      (pairs evaluate' scope done parts) := by
  induction parts generalizing done with
  | nil => exact .identified _
  | cons pair rest ih =>
    unfold pairs
    split
    next first second _ =>
      refine (evaluates first scope).bind fun key => .unlessSignal key ?_
      cases key.key? with
      | none =>
        exact .of_agree fun store => Policy.complain_tagOf_agree (aftermath.isOpen.good store)
          (aftermath.isOpen.held ..) _
      | some _ =>
        exact (evaluates second scope).bind fun value => .unlessSignal value (ih _)
    · exact .throw _

/-- A call may be stopped where the evaluation of bodies may, or a text that is printed. -/
theorem call_alarmed {inspect : Fault → Value → Except Fault String}
    {inspect' : Value → Except Fault String}
    (inspects : ∀ value,
      Alarmed aftermath (fun alarm => (liftM (inspect alarm value) : Eval String))
        (liftM (inspect' value)))
    (callee : Value) (arguments : List Value) :
    Alarmed aftermath (fun alarm => call (inspect alarm) (evaluate alarm) callee arguments)
      (call inspect' evaluate' callee arguments) := by
  unfold call
  split
  next identity parameters body scope =>
    refine .bind (.quiet fun store => ?_) fun inner => ?_
    · exact (aftermath.policy.enter (aftermath.isOpen.good store)
        (aftermath.isOpen.held store (.function identity parameters body scope))).2.1
    have bound : ∀ store, aftermath.policy.toTerms.Agree (fun _ _ => True) store
        (bindAll inner (parameters.zip arguments)) (bindAll inner (parameters.zip arguments)) :=
      fun store => Policy.bindAll_agree (aftermath.isOpen.good store)
        (fun _ => aftermath.isOpen.binds ..) fun _ _ => aftermath.isOpen.held ..
    exact .bind (.quiet fun store => (bound store).moves) fun _ =>
      (evaluates body inner).bind fun result => .pure result.unwrap
  · exact callBuiltin_alarmed inspects _ arguments
  · exact .of_agree fun store => Policy.complain_tagOf_agree (aftermath.isOpen.good store)
      (aftermath.isOpen.held ..) _

include applies

theorem application_alarmed (parts : List Tree) :
    Alarmed aftermath (fun alarm => application (evaluate alarm) (apply alarm) scope parts)
      (application evaluate' apply' scope parts) := by
  unfold application
  split
  next first second =>
    refine (evaluates first scope).bind fun callee => .unlessSignal callee ?_
    refine (values_alarmed evaluates second.children).bind fun result => ?_
    cases result with
    | inl signal => exact .pure signal
    | inr arguments => exact applies callee arguments
  · exact .throw _

/-- **One level of evaluation may be stopped** where the evaluation of the parts and calls may. -/
theorem step_alarmed (tree : Tree) :
    Alarmed aftermath (fun alarm => step (evaluate alarm) (apply alarm) scope tree)
      (step evaluate' apply' scope tree) := by
  cases tree with
  | leaf | absent => exact .pure _
  | node label parts =>
    cases label with
    | program => exact (statements_alarmed evaluates .nothing parts).bind fun value => .pure _
    | block => exact statements_alarmed evaluates .nothing parts
    | expressionStatement => exact firstPart_alarmed evaluates parts
    | letStatement => exact binding_alarmed evaluates parts
    | returnStatement => exact returning_alarmed evaluates parts
    | identifier =>
      refine .bind (.lift _) fun text => .of_agree fun store => ?_
      exact Policy.identifier_agree (aftermath.isOpen.good store) scope text
    | integer =>
      refine .bind (.lift _) fun text => ?_
      cases Number.read text with
      | ok number => exact .pure _
      | error reason => exact .throw _
    | string => exact .bind (.lift _) fun text => .identified _
    | boolean => exact .bind (.lift _) fun text => .pure _
    | unary => exact unary_alarmed evaluates parts
    | binary => exact binary_alarmed evaluates parts
    | index => exact index_alarmed evaluates parts
    | conditional => exact conditional_alarmed evaluates parts
    | function =>
      show Alarmed aftermath (fun _ => function scope parts) (function scope parts)
      unfold function
      split
      · exact .identified _
      · exact .throw _
    | call => exact application_alarmed evaluates applies parts
    | array => exact array_alarmed evaluates parts
    | hash => exact pairs_alarmed evaluates [] parts
    | parameters | arguments | pair | other => exact .pure _

end Step

end Eval

/-! ### Whole evaluations -/

namespace Policy.Open

variable {policy : Policy} (isOpen : policy.Open) (limit : Nat)

include isOpen

/-- Any evaluation changes a store as an open policy says. -/
theorem evaluate_moves (tree : Tree) (scope : ScopeId) (store : Store) :
    policy.moves store ((evaluate limit tree scope).runFrom store).2 :=
  (evaluate_agree .valueMissing (fun _ _ _ => trivial : ∀ _ _, _ → True) limit (isOpen.good store)
    (isOpen.admits store scope tree)).moves

/-- So does any application. -/
theorem apply_moves (callee : Value) (arguments : List Value) (store : Store) :
    policy.moves store ((apply limit callee arguments).runFrom store).2 :=
  (apply_agree .valueMissing (fun _ _ _ => trivial : ∀ _ _, _ → True) limit (isOpen.good store)
    (isOpen.held store callee) fun argument _ => isOpen.held store argument).moves

end Policy.Open

/-- A watched evaluation that is stopped at a store: it ends there in the alarm, whatever that is. -/
def StoppedAt (permits : Moment → Store → Prop) (limit : Nat) (tree : Tree) (scope : ScopeId)
    (store reached : Store) : Prop :=
  ∀ alarm, (evaluateWatched permits alarm limit tree scope).runFrom store = (.error alarm, reached)

/-- Whatever moment is not permitted, what becomes of the evaluation from there on is in the
aftermath. -/
structure Aftermath.Covers (aftermath : Aftermath) (permits : Moment → Store → Prop) : Prop where
  entered : ∀ {tree scope store}, ¬ permits (.entered tree scope) store → ∀ limit,
    aftermath.Follows store ((evaluate (limit + aftermath.more + 1) tree scope).runFrom store)
  yielded : ∀ {tree value store}, ¬ permits (.yielded tree value) store →
    aftermath.ends store none store
  applied : ∀ {callee arguments store}, ¬ permits (.applied callee arguments) store → ∀ limit,
    aftermath.Follows store ((apply (limit + aftermath.more) callee arguments).runFrom store)

section Watched

variable {aftermath : Aftermath} {permits : Moment → Store → Prop}

/-- An evaluation from a moment on, which is stopped if the moment is not permitted. -/
theorem Eval.watched_alarmed {moment : Moment} {next : Fault → Eval α} {other : Eval α}
    (rest : Alarmed aftermath next other)
    (refused : ∀ store, ¬ permits moment store → aftermath.Follows store (other.runFrom store)) :
    Alarmed aftermath (fun alarm => Eval.watch permits alarm moment >>= fun _ => next alarm)
      other := by
  refine ⟨rest.moves, fun store => ?_⟩
  by_cases permitted : permits moment store
  · exact (rest.meets store).congr
      (fun alarm => runFrom_bind_of_ok (runFrom_watch_of_permits permitted) _) rfl
  · exact .stopped (fun alarm => runFrom_bind_of_error (runFrom_watch_of_not_permits permitted) _)
      (refused store permitted)

section Covered

variable (covers : aftermath.Covers permits)

include covers

/-- **A watched evaluation does what it does when it is not watched, or is stopped**, and then that
ends in the aftermath. -/
theorem evaluateWatched_alarmed (limit : Nat) (tree : Tree) (scope : ScopeId) :
    Eval.Alarmed aftermath (fun alarm => evaluateWatched permits alarm limit tree scope)
      (evaluate (limit + aftermath.more) tree scope) := by
  induction limit generalizing tree scope with
  | zero =>
    rw [Nat.zero_add]
    by_cases same : aftermath.more = 0
    · rw [same]
      exact .throw _
    · exact .exhausted (aftermath.isOpen.evaluate_moves _ tree scope) same
  | succ limit ih =>
    have applies : ∀ callee arguments, Eval.Alarmed aftermath
        (fun alarm => Eval.callWatched permits alarm (Value.inspectWithin limit)
          (evaluateWatched permits alarm limit) callee arguments)
        (Eval.call (Value.inspectWithin (limit + aftermath.more))
          (evaluate (limit + aftermath.more)) callee arguments) :=
      fun callee arguments =>
        Eval.watched_alarmed (Eval.call_alarmed ih (Eval.inspectWithin_alarmed limit) callee arguments)
          fun _ refused => covers.applied refused limit
    rw [Nat.add_right_comm]
    refine Eval.watched_alarmed ?_ fun _ refused => covers.entered refused limit
    rw [evaluate, ← bind_pure (Eval.step (evaluate (limit + aftermath.more)) _ scope tree)]
    refine (Eval.step_alarmed ih applies tree).bind fun value => ?_
    exact Eval.watched_alarmed (.pure value) fun _ refused => covers.yielded refused

/-- Every moment of an evaluation is permitted, or it is stopped where the aftermath begins. -/
theorem always_or_stopped (same : aftermath.more = 0) (limit : Nat) (tree : Tree) (scope : ScopeId)
    (store : Store) :
    AlwaysEvaluating permits limit tree scope store ∨
      ∃ reached, StoppedAt permits limit tree scope store reached ∧
        aftermath.Follows reached ((evaluate limit tree scope).runFrom store) := by
  have met := (evaluateWatched_alarmed covers limit tree scope).meets store
  rw [same] at met
  cases met with
  | alike always => exact Or.inl always
  | stopped stopped follows => exact Or.inr ⟨_, stopped, follows⟩
  | exhausted larger => exact absurd same larger

end Covered

/-- Where an evaluation is stopped, the one with more levels to go ends in the aftermath. -/
theorem StoppedAt.follows {limit : Nat} {tree : Tree} {scope : ScopeId} {store reached : Store}
    (stopped : StoppedAt permits limit tree scope store reached)
    (covers : aftermath.Covers permits) :
    aftermath.Follows reached ((evaluate (limit + aftermath.more) tree scope).runFrom store) := by
  cases (evaluateWatched_alarmed covers limit tree scope).meets store with
  | alike same =>
    -- one evaluation cannot end in two alarms
    have one := (stopped .valueMissing).symm.trans (same .valueMissing)
    cases one.trans ((same .divisionByZero).symm.trans (stopped .divisionByZero))
  | stopped stopped' follows =>
    cases (stopped .valueMissing).symm.trans (stopped' .valueMissing)
    exact follows
  | exhausted _ exhausted =>
    cases (stopped .valueMissing).symm.trans (exhausted .valueMissing)

end Watched

end Scriptlet
