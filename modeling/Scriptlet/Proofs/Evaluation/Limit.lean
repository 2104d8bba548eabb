/-
**The nesting limit decides only whether an evaluation ends.**

* `Store.Continues`: what has been printed in one store starts what has been printed in another.
* `Eval.Extends`: an evaluation does what another one does, unless that one ends beyond the limit;
  then it prints the same at first.
* `evaluateBeyond`: evaluation with something else in place of an exhausted limit, of an evaluation
  or of a text that is printed. A larger limit is one such thing (`Beyond.levels`), and an alarm is
  another (`Beyond.alarm`).

Main statement: `evaluate_limit`. An evaluation that ends within a limit ends in the same way within
every larger one, and never meets the limit; one that does not end within a limit has printed a
beginning of what it prints within every larger one.
-/
import Scriptlet.Proofs.Evaluation.Alarm
import Scriptlet.Tree.Build

namespace Scriptlet

/-- What has been printed in one store starts what has been printed in another. -/
def Store.Continues (before after : Store) : Prop :=
  before.printed.toList <+: after.printed.toList

theorem Store.Continues.refl (store : Store) : store.Continues store :=
  List.prefix_refl _

theorem Store.Continues.trans {first second third : Store} (start : first.Continues second)
    (rest : second.Continues third) : first.Continues third :=
  List.IsPrefix.trans start rest

/-! ### Nothing printed is taken back -/

/-- Any tree may be evaluated, any value held, and what has been printed stays. -/
def growth : Policy where
  good _ := True
  moves := Store.Continues
  faults _ := True
  refl := .refl
  trans := .trans
  admits _ _ _ := True
  held _ _ := True
  binds _ _ _ := True
  admits_moves _ admitted := admitted
  held_moves _ held := held
  binds_moves _ binds := binds
  bind _ _ _ := ⟨trivial, .refl _⟩
  identify _ := ⟨trivial, .refl _⟩
  print line _ := ⟨trivial, by simp [Store.Continues, Store.print]⟩
  enter _ _ := ⟨trivial, .refl _, trivial, fun _ => trivial⟩
  lookup _ _ := trivial
  operand _ _ := trivial
  consumed _ _ := Or.inr fun _ => trivial
  named _ _ := trivial
  literal _ _ _ := trivial
  function _ _ _ _ := trivial
  null := trivial
  boolean _ := trivial
  builtin _ := trivial
  string _ _ := trivial
  wrapped _ := trivial
  measured _ := trivial
  array _ _ _ := trivial
  hash _ _ _ := trivial
  element _ _ := trivial
  returned _ := trivial
  division := trivial
  nesting := trivial
  flaw _ _ := trivial
  inspect _ _ := trivial

/-- Growth asks nothing else. -/
theorem growth_isOpen : growth.Open :=
  ⟨fun _ => trivial, fun _ _ _ => trivial, fun _ _ => trivial, fun _ _ _ => trivial⟩

/-- After a moment, what has been printed by then stays. -/
def printing : Aftermath where
  policy := growth
  isOpen := growth_isOpen
  more := 0
  ends reached _ last := reached.Continues last
  onward := .trans

namespace Eval

variable {α : Type}

/-- An evaluation takes back nothing that has been printed. -/
def Grows (evaluation : Eval α) : Prop :=
  ∀ store : Store, store.Continues (evaluation.runFrom store).2

theorem Grows.throw (fault : Fault) : Grows (throw fault : Eval α) :=
  fun store => .refl store

/-! ### Extension -/

/-- The second evaluation does what the first does, unless the first ends beyond the limit; then it
has printed what the first has printed, and goes on. -/
structure Extends (first second : Eval α) : Prop where
  grows : Grows second
  ends : ∀ store, second.runFrom store = first.runFrom store ∨
    (first.runFrom store).1 = .error .nestingTooDeep ∧
      (first.runFrom store).2.Continues (second.runFrom store).2

/-- An evaluation that does not end beyond the limit is what every extension of it is. -/
theorem Extends.runFrom_eq {first second : Eval α} (extended : Extends first second)
    {store : Store} (ended : (first.runFrom store).1 ≠ .error .nestingTooDeep) :
    second.runFrom store = first.runFrom store := by
  rcases extended.ends store with same | ⟨halted, -⟩
  · exact same
  · exact absurd halted ended

/-- What may be stopped in an alarm extends what ends beyond the limit there. -/
theorem Alarmed.extends {first : Fault → Eval α} {second : Eval α}
    (alarmed : Alarmed printing first second) : Extends (first .nestingTooDeep) second := by
  refine ⟨alarmed.moves, fun store => ?_⟩
  cases alarmed.meets store with
  | alike same => exact Or.inl (same _).symm
  | stopped stopped continues =>
    rw [stopped]
    exact Or.inr ⟨rfl, continues⟩
  | exhausted larger => exact absurd rfl larger

end Eval

/-! ### Whole evaluations -/

/-- What stands in place of an exhausted limit. -/
structure Beyond where
  /-- What a tree yields for which no level is left. -/
  evaluate : Tree → ScopeId → Eval Value
  /-- The text of a value that takes more calls than there are levels left. -/
  inspect : (limit : Nat) → Value → Except Fault String

namespace Beyond

/-- An alarm in place of an exhausted limit. -/
def alarm (fault : Fault) : Beyond where
  evaluate _ _ := throw fault
  inspect _ _ := .error fault

/-- More levels in place of an exhausted limit. -/
def levels (more : Nat) : Beyond where
  evaluate := Scriptlet.evaluate more
  inspect limit := Value.inspectWithin (limit + more)

/-- The text of a value, with something else in place of an exhausted limit. -/
def inspectFrom (beyond : Beyond) (limit : Nat) (value : Value) : Except Fault String :=
  if value.depth ≤ limit then value.inspect else beyond.inspect limit value

/-- A larger limit goes on where a limit is exhausted. -/
theorem inspectFrom_levels (limit more : Nat) :
    (levels more).inspectFrom limit = Value.inspectWithin (limit + more) := by
  funext value
  by_cases fits : value.depth ≤ limit
  · rw [inspectFrom, if_pos fits, Value.inspectWithin, if_pos (Nat.le_add_right_of_le fits)]
  · rw [inspectFrom, if_neg fits, levels]

/-- An alarm may stop a text at an exhausted limit, whatever stands there instead. -/
theorem inspectFrom_alarmed (beyond : Beyond) (limit : Nat) (value : Value) :
    Eval.Alarmed printing
      (fun fault => (liftM ((alarm fault).inspectFrom limit value) : Eval String))
      (liftM (beyond.inspectFrom limit value)) := by
  by_cases fits : value.depth ≤ limit
  · simp only [inspectFrom, if_pos fits]
    exact .lift _
  · simp only [inspectFrom, if_neg fits]
    have grows : Eval.Grows (liftM (beyond.inspect limit value) : Eval String) :=
      (@Eval.Alarmed.lift _ printing _).moves
    exact .stopped grows grows

end Beyond

/-- What a tree yields on a scope, with something else in place of an exhausted limit. -/
def evaluateBeyond (beyond : Beyond) : (limit : Nat) → Tree → ScopeId → Eval Value
  | 0, tree, scope => beyond.evaluate tree scope
  | limit + 1, tree, scope =>
    Eval.step (evaluateBeyond beyond limit)
      (Eval.call (beyond.inspectFrom limit) (evaluateBeyond beyond limit)) scope tree

/-- A larger limit goes on where a limit is exhausted. -/
theorem evaluateBeyond_levels (limit more : Nat) :
    evaluateBeyond (.levels more) limit = evaluate (limit + more) := by
  induction limit with
  | zero =>
    rw [Nat.zero_add]
    rfl
  | succ limit ih =>
    funext tree scope
    rw [evaluateBeyond, ih, Beyond.inspectFrom_levels, Nat.add_right_comm, evaluate]

/-- The alarm of an evaluation itself is a nesting beyond the limit. -/
theorem evaluateBeyond_nestingTooDeep (limit : Nat) :
    evaluateBeyond (.alarm .nestingTooDeep) limit = evaluate limit := by
  induction limit with
  | zero => rfl
  | succ limit ih =>
    funext tree scope
    rw [evaluateBeyond, ih]
    rfl

/-- An alarm may stop an evaluation at an exhausted limit, whatever stands there instead. -/
theorem evaluateBeyond_alarmed {beyond : Beyond}
    (grows : ∀ tree scope, Eval.Grows (beyond.evaluate tree scope)) (limit : Nat) (tree : Tree)
    (scope : ScopeId) :
    Eval.Alarmed printing (fun fault => evaluateBeyond (.alarm fault) limit tree scope)
      (evaluateBeyond beyond limit tree scope) := by
  induction limit generalizing tree scope with
  | zero => exact .stopped (grows tree scope) (grows tree scope)
  | succ limit ih =>
    exact Eval.step_alarmed ih (Eval.call_alarmed ih (beyond.inspectFrom_alarmed limit)) tree

/-- **Whatever stands in place of an exhausted limit extends the evaluation**, if it only adds to
what has been printed. -/
theorem evaluateBeyond_extends {beyond : Beyond}
    (grows : ∀ tree scope, Eval.Grows (beyond.evaluate tree scope)) (limit : Nat) (tree : Tree)
    (scope : ScopeId) :
    Eval.Extends (evaluate limit tree scope) (evaluateBeyond beyond limit tree scope) := by
  rw [← evaluateBeyond_nestingTooDeep]
  exact (evaluateBeyond_alarmed grows limit tree scope).extends

/-- An evaluation only adds to what has been printed. -/
theorem evaluate_grows (limit : Nat) (tree : Tree) (scope : ScopeId) :
    Eval.Grows (evaluate limit tree scope) :=
  growth_isOpen.evaluate_moves limit tree scope

/-- Evaluation within a larger limit extends evaluation within a smaller one. -/
theorem evaluate_extends {limit more : Nat} (within : limit ≤ more) (tree : Tree)
    (scope : ScopeId) : Eval.Extends (evaluate limit tree scope) (evaluate more tree scope) := by
  obtain ⟨further, rfl⟩ := Nat.exists_eq_add_of_le within
  rw [← evaluateBeyond_levels]
  exact evaluateBeyond_extends (evaluate_grows further) limit tree scope

/-- A run that does not end beyond the limit is the same within a larger one. -/
theorem runWithin_extends {limit more : Nat} (within : limit ≤ more) {source : String}
    {scope : ScopeId} {store : Store}
    (ended : (runWithin limit source scope store).1.result ≠ .error (.halted .nestingTooDeep)) :
    runWithin more source scope store = runWithin limit source scope store := by
  cases read : parse source with
  | error reason => rw [runWithin, runWithin, read]
  | ok program =>
    rw [runWithin_of_parse read] at ended ⊢
    rw [runWithin_of_parse read, (evaluate_extends within program scope).runFrom_eq]
    intro deep
    rw [deep] at ended
    exact ended rfl

/-- **The nesting limit decides only whether an evaluation ends.** For any tree, scope and store, and
two limits: an evaluation that ends otherwise than beyond the smaller limit ends in the same way
within the larger one, in the same store; and it does so whatever fault is raised in place of the
exhausted limit, for it never meets the limit. An evaluation that ends beyond the smaller limit has
printed by then a beginning of what it prints within the larger one. -/
theorem evaluate_limit {limit more : Nat} (within : limit ≤ more) (tree : Tree) (scope : ScopeId)
    (store : Store) :
    let short := (evaluate limit tree scope).runFrom store
    let long := (evaluate more tree scope).runFrom store
    (short.1 ≠ .error .nestingTooDeep → long = short ∧
      ∀ fault, (evaluateBeyond (.alarm fault) limit tree scope).runFrom store = short) ∧
    (short.1 = .error .nestingTooDeep → short.2.Continues long.2) := by
  intro short long
  have longer := evaluate_extends within tree scope
  have alarmed := fun fault => @evaluateBeyond_extends (.alarm fault)
    (fun _ _ => Eval.Grows.throw fault) limit tree scope
  refine ⟨fun ended => ⟨longer.runFrom_eq ended, fun fault => (alarmed fault).runFrom_eq ended⟩,
    fun _ => ?_⟩
  rcases longer.ends store with same | ⟨-, continues⟩
  · have alike : long = short := same
    rw [alike]
    exact .refl _
  · exact continues

/-- A function that prints and calls itself prints on within a larger limit; called once without
calling itself, it ends in the same way. -/
theorem evaluate_limit_recursion :
    let greeting := Build.call (Build.identifier "puts") [Build.boolean true]
    let calling := Build.statement (Build.call (Build.identifier "f") [])
    let once := Build.program [Build.binding "f" (Build.function []
      (Build.block [Build.statement greeting])), calling]
    let again := Build.program [Build.binding "f" (Build.function []
      (Build.block [Build.statement greeting, calling])), calling]
    12 ≤ 20 ∧
      (evaluate 20 once Store.root).runFrom .initial =
        (evaluate 12 once Store.root).runFrom .initial ∧
      ((evaluate 12 again Store.root).runFrom .initial).2.printed = #["true", "true"] ∧
      ((evaluate 12 again Store.root).runFrom .initial).2.Continues
        ((evaluate 20 again Store.root).runFrom .initial).2 := by
  intro greeting calling once again
  have within : 12 ≤ 20 := by decide
  have ends : ((evaluate 12 once Store.root).runFrom .initial).1 ≠ .error .nestingTooDeep := by
    have ended : ((evaluate 12 once Store.root).runFrom .initial).1 = .ok .null := rfl
    rw [ended]
    simp
  have halts : ((evaluate 12 again Store.root).runFrom .initial).1 = .error .nestingTooDeep := rfl
  exact ⟨within, ((evaluate_limit within once Store.root .initial).1 ends).1, rfl,
    (evaluate_limit within again Store.root .initial).2 halts⟩

end Scriptlet
