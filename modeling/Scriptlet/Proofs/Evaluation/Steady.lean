/-
**Trees that yield one value and change nothing.**

Where the value of a tree is known from the values of its parts, the limit on the nesting is all that
may stand in its way.

* `Tree.height`: how deep the nodes of a tree are nested.
* `Tree.Steady`: the tree yields the value and leaves the store as it is, wherever the limit allows
  for its height; any lower limit is exhausted.

Main statements: numerals and bound names are steady (`Tree.Steady.integer`,
`Tree.Steady.identifier`), operators on steady operands (`Tree.Steady.unary`, `Tree.Steady.binary`),
and the program that is one steady expression (`Tree.Steady.program`).
-/
import Scriptlet.Proofs.Evaluation.Wrapping

namespace Scriptlet

namespace Tree

mutual

/-- How deep the nodes of a tree are nested. -/
def height : Tree → Nat
  | node _ children => heightAll children + 1
  | leaf _ | absent => 0

/-- How deep the nodes of trees are nested. -/
def heightAll : List Tree → Nat
  | [] => 0
  | tree :: rest => max tree.height (heightAll rest)

end

/-- No tree is nested deeper than all of them. -/
theorem height_le_heightAll {tree : Tree} {trees : List Tree} (member : tree ∈ trees) :
    tree.height ≤ heightAll trees := by
  induction trees with
  | nil => cases member
  | cons first rest ih =>
    rcases List.mem_cons.mp member with rfl | later
    · exact Nat.le_max_left _ _
    · exact Nat.le_trans (ih later) (Nat.le_max_right _ _)

/-- Whatever the limit, a tree yields a value, or it is too high for the limit; the store stays as it
is. -/
def Steady (tree : Tree) (scope : ScopeId) (store : Store) (value : Value) : Prop :=
  ∀ limit, (evaluate limit tree scope).runFrom store =
    (if tree.height ≤ limit then .ok value else .error .nestingTooDeep, store)

namespace Steady

variable {tree part first second : Tree} {scope : ScopeId} {store : Store}
  {value left right : Value} {limit : Nat} {token operator : Token}

theorem enough (steady : tree.Steady scope store value) (high : tree.height ≤ limit) :
    (evaluate limit tree scope).runFrom store = (.ok value, store) := by
  rw [steady, if_pos high]

theorem tooHigh (steady : tree.Steady scope store value) (low : limit < tree.height) :
    (evaluate limit tree scope).runFrom store = (.error .nestingTooDeep, store) := by
  rw [steady, if_neg (Nat.not_le.mpr low)]

/-- One level of evaluation. -/
theorem of_step (height : Nat) (level : tree.height = height + 1)
    (enough : ∀ limit, height ≤ limit →
      (Eval.step (evaluate limit) (apply limit) scope tree).runFrom store = (.ok value, store))
    (tooHigh : ∀ limit < height,
      (Eval.step (evaluate limit) (apply limit) scope tree).runFrom store =
        (.error .nestingTooDeep, store)) : tree.Steady scope store value := by
  intro limit
  rw [level]
  cases limit with
  | zero => rfl
  | succ limit =>
    split
    next high => exact enough limit (Nat.le_of_succ_le_succ high)
    next low => exact tooHigh limit (Nat.lt_of_succ_lt_succ (Nat.lt_of_not_le low))

/-- A numeral. -/
theorem integer {number : Int} (read : Number.read token.text = .ok number) :
    (Tree.node .integer [.leaf token]).Steady scope store (.integer number) := by
  refine of_step 0 rfl (fun limit _ => ?_) fun limit low => absurd low (Nat.not_lt_zero limit)
  refine (Eval.runFrom_bind_of_ok rfl _).trans ?_
  rw [read]
  rfl

/-- A name that is bound. -/
theorem identifier (found : store.lookup? scope token.text = some value) :
    (Tree.node .identifier [.leaf token]).Steady scope store value := by
  refine of_step 0 rfl (fun limit _ => ?_) fun limit low => absurd low (Nat.not_lt_zero limit)
  show (Eval.identifier scope token.text).runFrom store = _
  rw [Eval.identifier, Eval.runFrom_bind_of_ok (Eval.runFrom_get store), found]
  rfl

/-- A unary operator. -/
theorem unary (steady : part.Steady scope store right) (calm : right.isSignal = false)
    (applied : (Eval.applyUnary operator.text right).runFrom store = (.ok value, store)) :
    (Tree.node .unary [.leaf operator, part]).Steady scope store value := by
  refine of_step part.height (by simp [height, heightAll]) (fun limit high => ?_)
    fun limit low => Eval.runFrom_bind_of_error (steady.tooHigh low) _
  exact (Eval.runFrom_used_calm (steady.enough high) _ calm).trans applied

/-- A binary operator. -/
theorem binary (steady : first.Steady scope store left) (steady' : second.Steady scope store right)
    (calm : left.isSignal = false) (calm' : right.isSignal = false)
    (applied : (Eval.applyBinary operator.text left right).runFrom store = (.ok value, store)) :
    (Tree.node .binary [first, .leaf operator, second]).Steady scope store value := by
  refine of_step (max first.height second.height) (by simp [height, heightAll])
    (fun limit high => ?_) fun limit low => ?_
  · obtain ⟨high, high'⟩ := Nat.max_le.mp high
    refine (Eval.runFrom_used_calm (steady.enough high) _ calm).trans ?_
    exact (Eval.runFrom_used_calm (steady'.enough high') _ calm').trans applied
  · -- the operand on the left is the first to be too high
    by_cases high : first.height ≤ limit
    · have low' : limit < second.height := by omega
      refine (Eval.runFrom_used_calm (steady.enough high) _ calm).trans ?_
      exact Eval.runFrom_bind_of_error (steady'.tooHigh low') _
    · exact Eval.runFrom_bind_of_error (steady.tooHigh (Nat.lt_of_not_le high)) _

/-- A binary operator on integers. -/
theorem integers {known : BinaryOperator} {one other : Int}
    (steady : first.Steady scope store (.integer one))
    (steady' : second.Steady scope store (.integer other))
    (spelled : BinaryOperator.ofText? operator.text = some known)
    (combined : (Eval.combineIntegers one other known).runFrom store = (.ok value, store)) :
    (Tree.node .binary [first, .leaf operator, second]).Steady scope store value := by
  refine binary steady steady' rfl rfl ?_
  rw [Eval.applyBinary, spelled]
  exact combined

/-- The program whose only statement is an expression. -/
theorem program (steady : tree.Steady scope store value) :
    (Tree.node .program [.node .expressionStatement [tree]]).Steady scope store value.operand := by
  have expressing : (Tree.node .expressionStatement [tree]).Steady scope store value :=
    of_step tree.height (by simp [height, heightAll])
      (fun limit high => steady.enough high) fun limit low => steady.tooHigh low
  have stepped : ∀ limit, (Eval.step (evaluate limit) (apply limit) scope
      (.node .program [.node .expressionStatement [tree]])).runFrom store = _ := fun limit =>
    (Eval.runFrom_return _ Value.operand store).trans (by rw [Eval.statements_singleton])
  refine of_step (Tree.node .expressionStatement [tree]).height (by simp [height, heightAll])
    (fun limit high => ?_) fun limit low => ?_
  · rw [stepped, expressing.enough high]
    rfl
  · rw [stepped, expressing.tooHigh low]
    rfl

/-- The program is two higher than its expression. -/
theorem height_program (expression : Tree) :
    (Tree.node .program [.node .expressionStatement [expression]]).height = expression.height + 2 := by
  simp [height, heightAll]

/-- The program whose only statement is an expression, run from its text. -/
theorem runWithin_eq {source : String}
    (accepted : parse source = .ok (.node .program [.node .expressionStatement [tree]]))
    (steady : tree.Steady scope store value) (high : tree.height + 2 ≤ limit) :
    runWithin limit source scope store =
      (⟨some (.node .program [.node .expressionStatement [tree]]), .ok value.operand⟩, store) := by
  rw [runWithin_of_parse accepted, steady.program.enough (by rw [height_program]; exact high)]
  rfl

end Steady

end Tree

end Scriptlet
