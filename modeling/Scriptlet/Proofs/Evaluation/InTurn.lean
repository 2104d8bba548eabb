/-
**Trees that are evaluated in turn.**

What an evaluation evaluates is what it meets the moments of: whatever is permitted, it is stopped
where they are, and nowhere else.

* `AlwaysInTurn`: every moment of trees is permitted, which are evaluated in turn, each from the store
  that the one before it leaves.
* `EvaluatesJust`: a tree yields a value, and just these trees are evaluated for it.

Main statements: `alwaysEvaluating_iff`, an evaluation that yields a value meets only permitted moments
if it yields that value watched; `alwaysEvaluating_succ_iff`, these are the tree entered, those of its
step, and the tree yielding; `Eval.Calmly.watched_iff`, trees that are evaluated calmly in turn.
-/
import Scriptlet.Proofs.Evaluation.Limit
import Scriptlet.Proofs.Evaluation.Signals

namespace Scriptlet

/-- Whatever moments are permitted, what has been printed by the first other one stays. -/
theorem printing_covers (permits : Moment → Store → Prop) : printing.Covers permits where
  entered _ limit := evaluate_grows (limit + 1) _ _ _
  yielded _ := .refl _
  applied _ limit := growth_isOpen.apply_moves limit _ _ _

/-- Every moment of trees evaluated in turn is permitted. -/
def AlwaysInTurn (permits : Moment → Store → Prop) (limit : Nat) (scope : ScopeId) :
    List Tree → Store → Prop
  | [], _ => True
  | tree :: rest, store => AlwaysEvaluating permits limit tree scope store ∧
      AlwaysInTurn permits limit scope rest ((evaluate limit tree scope).runFrom store).2

/-- A tree yields a value, and what is evaluated for it is just the given parts, in turn: whatever is
permitted, the moments met are the tree entered, those of the parts, and the tree yielding. -/
structure EvaluatesJust (limit : Nat) (tree : Tree) (scope : ScopeId) (parts : List Tree)
    (store : Store) (value : Value) (after : Store) : Prop where
  ran : (evaluate (limit + 1) tree scope).runFrom store = (.ok value, after)
  moments : ∀ permits, AlwaysEvaluating permits (limit + 1) tree scope store ↔
    permits (.entered tree scope) store ∧ AlwaysInTurn permits limit scope parts store ∧
      permits (.yielded tree value) after

section Watched

variable {permits : Moment → Store → Prop} {alarm : Fault} {limit : Nat} {tree : Tree}
  {scope : ScopeId} {store after : Store} {value : Value}

/-- A watched evaluation that yields a value is not stopped. -/
theorem AlwaysEvaluating.of_ok
    (ran : (evaluateWatched permits alarm limit tree scope).runFrom store = (.ok value, after)) :
    AlwaysEvaluating permits limit tree scope store := by
  rcases always_or_stopped (printing_covers permits) rfl limit tree scope store with
    always | ⟨reached, stopped, -⟩
  · exact always
  · cases (stopped alarm).symm.trans ran

/-- **An evaluation meets only permitted moments if it yields its value watched.** -/
theorem alwaysEvaluating_iff (alarm : Fault)
    (ran : (evaluate limit tree scope).runFrom store = (.ok value, after)) :
    AlwaysEvaluating permits limit tree scope store ↔
      (evaluateWatched permits alarm limit tree scope).runFrom store = (.ok value, after) :=
  ⟨fun always => (always alarm).trans ran, .of_ok⟩

/-- A watched evaluation yields a value that the evaluation yields. -/
theorem runFrom_evaluate_of_watched
    (ran : (evaluateWatched permits alarm limit tree scope).runFrom store = (.ok value, after)) :
    (evaluate limit tree scope).runFrom store = (.ok value, after) :=
  (AlwaysEvaluating.of_ok ran alarm).symm.trans ran

/-- **The moments of one level of evaluation**: the tree is entered, those of its step, and the tree
yields. -/
theorem alwaysEvaluating_succ_iff (alarm : Fault)
    (ran : (evaluate (limit + 1) tree scope).runFrom store = (.ok value, after)) :
    AlwaysEvaluating permits (limit + 1) tree scope store ↔
      permits (.entered tree scope) store ∧
      (Eval.step (evaluateWatched permits alarm limit)
        (applyWatched permits alarm limit) scope tree).runFrom store = (.ok value, after) ∧
      permits (.yielded tree value) after := by
  rw [alwaysEvaluating_iff alarm ran]
  constructor
  · intro watched
    by_cases enters : permits (.entered tree scope) store
    · rw [evaluateWatched, Eval.runFrom_bind_of_ok (Eval.runFrom_watch_of_permits enters)] at watched
      obtain ⟨yielded, last, stepped, watched⟩ := Eval.exists_of_runFrom_bind watched
      by_cases yields : permits (.yielded tree yielded) last
      · rw [Eval.runFrom_bind_of_ok (Eval.runFrom_watch_of_permits yields)] at watched
        cases watched
        exact ⟨enters, stepped, yields⟩
      · rw [Eval.runFrom_bind_of_error (Eval.runFrom_watch_of_not_permits yields)] at watched
        cases watched
    · rw [evaluateWatched,
        Eval.runFrom_bind_of_error (Eval.runFrom_watch_of_not_permits enters)] at watched
      cases watched
  · rintro ⟨enters, stepped, yields⟩
    exact runFrom_evaluateWatched_of_permits enters stepped yields

/-- **Trees that are evaluated calmly meet only permitted moments** if they are evaluated calmly
watched. -/
theorem Eval.Calmly.watched_iff {trees : List Tree} {values : List Value} (alarm : Fault)
    (calmly : Calmly (evaluate limit) scope trees store values after) :
    Calmly (evaluateWatched permits alarm limit) scope trees store values after ↔
      AlwaysInTurn permits limit scope trees store := by
  induction calmly with
  | nil => exact ⟨fun _ => trivial, fun _ => .nil⟩
  | @cons tree rest value values store middle after ran calm _ ih =>
    constructor
    · rintro (_ | ⟨watched, -, more⟩)
      cases (runFrom_evaluate_of_watched watched).symm.trans ran
      refine ⟨.of_ok watched, ?_⟩
      rw [ran]
      exact ih.mp more
    · rintro ⟨always, more⟩
      rw [ran] at more
      exact .cons ((always alarm).trans ran) calm (ih.mpr more)

/-- Trees after ones that are evaluated calmly are evaluated from the store that these leave. -/
theorem alwaysInTurn_append {first second : List Tree} {values : List Value}
    (calmly : Eval.Calmly (evaluate limit) scope first store values after) :
    AlwaysInTurn permits limit scope (first ++ second) store ↔
      AlwaysInTurn permits limit scope first store ∧
      AlwaysInTurn permits limit scope second after := by
  induction calmly with
  | nil => simp [AlwaysInTurn]
  | cons ran _ _ ih =>
    rw [List.cons_append, AlwaysInTurn, AlwaysInTurn, ran, ih, and_assoc]

end Watched

end Scriptlet
