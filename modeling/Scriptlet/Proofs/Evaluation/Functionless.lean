/-
**Trees without functions mean what they say.**

Only a function keeps a tree in a value. So trees without functions that are equal but for places are
evaluated alike from every store, and what they yield is the same value. How applications are
watched does not matter for it.

* `Tree.SameUnplaced`: a tree is another one with other places.
* `Tree.Functionless`: there is no function in a tree.
* `Eval.Levels`: an evaluation level by level, with an application of its own.
* `Applying`: moments of which only applications are watched.

Main statements: `Eval.Levels.of_functionless`, by induction on the limit, with one lemma for each list
that an evaluation goes through; plain evaluations have levels (`levels_evaluate`), and so have those
of which only applications are watched (`levels_watched`).
-/
import Mathlib.Data.List.Forall2
import Scriptlet.Proofs.Evaluation.Watch
import Scriptlet.Proofs.Tree.Shape
import Scriptlet.Proofs.Tree.Unplaced

namespace Scriptlet

namespace Tree

/-- The second tree is the first one, but for places. -/
def SameUnplaced (tree other : Tree) : Prop :=
  other.unplaced = tree.unplaced

namespace SameUnplaced

variable {other : Tree}

/-- A node keeps its label and has as many children. -/
theorem exists_node {label : Label} {children' : List Tree}
    (same : SameUnplaced (.node label children') other) :
    ∃ others, other = .node label others ∧ List.Forall₂ SameUnplaced children' others := by
  cases other with
  | leaf | absent => simp [SameUnplaced, unplaced] at same
  | node label' others =>
    simp only [SameUnplaced, node_unplaced, node.injEq] at same
    obtain ⟨rfl, children⟩ := same
    refine ⟨others, rfl, ?_⟩
    have pointwise : List.Forall₂ (· = ·) (others.map unplaced) (children'.map unplaced) := by
      rw [List.forall₂_eq_eq_eq, children]
    exact (List.forall₂_map_right_iff.mp (List.forall₂_map_left_iff.mp pointwise)).flip

/-- A token keeps its text. -/
theorem exists_leaf {token : Token} (same : SameUnplaced (.leaf token) other) :
    ∃ token', other = .leaf token' ∧ token'.text = token.text := by
  cases other with
  | node | absent => simp [SameUnplaced, unplaced] at same
  | leaf token' =>
    injection same with tokens
    have text : token'.unplaced.text = token.unplaced.text := congrArg Token.text tokens
    exact ⟨token', rfl, text⟩

/-- What holds of each tree and the same one with other places holds all along two lists. -/
theorem forall₂ {holds : Tree → Tree → Prop} {trees others : List Tree}
    (each : ∀ tree ∈ trees, ∀ other, SameUnplaced tree other → holds tree other)
    (all : List.Forall₂ SameUnplaced trees others) : List.Forall₂ holds trees others :=
  ((List.forall₂_and_left _ _).mpr ⟨each, all⟩).imp fun _ _ both => both.1 _ both.2

end SameUnplaced

end Tree

namespace Eval

variable {evaluate : Tree → ScopeId → Eval Value} {trees others : List Tree}

/-- The two trees are evaluated alike. -/
abbrev SameValue (evaluate : Tree → ScopeId → Eval Value) (tree other : Tree) : Prop :=
  evaluate other = evaluate tree

/-- Statements that are evaluated alike one by one are evaluated alike in turn. -/
theorem statements_of_sameValue (alike : List.Forall₂ (SameValue evaluate) trees others)
    (scope : ScopeId) (last : Value) :
    statements evaluate scope last others = statements evaluate scope last trees := by
  induction alike generalizing last with
  | nil => rfl
  | cons here _ ih => simp only [statements, here, ih]

theorem values_of_sameValue (alike : List.Forall₂ (SameValue evaluate) trees others)
    (scope : ScopeId) : values evaluate scope others = values evaluate scope trees := by
  induction alike with
  | nil => rfl
  | cons here _ ih => simp only [values, here, ih]

/-- Pairs whose keys and values are evaluated alike are evaluated alike in turn. -/
theorem pairs_of_sameValue
    (alike : List.Forall₂
      (fun tree other => ∃ key value key' value', tree = .node .pair [key, value] ∧
        other = .node .pair [key', value'] ∧ SameValue evaluate key key' ∧
        SameValue evaluate value value') trees others)
    (scope : ScopeId) (done : List (Value × Value)) :
    pairs evaluate scope done others = pairs evaluate scope done trees := by
  induction alike generalizing done with
  | nil => rfl
  | cons here _ ih =>
    obtain ⟨key, value, key', value', rfl, rfl, sameKey, sameValue⟩ := here
    simp only [pairs, Tree.children, sameKey, sameValue, ih]

end Eval

/-- There is no function in a tree. -/
inductive Tree.Functionless : Tree → Prop
  | node {label : Label} {children : List Tree} : label ≠ .function →
      (∀ part ∈ children, Functionless part) → Functionless (.node label children)
  | leaf (token : Token) : Functionless (.leaf token)
  | absent : Functionless .absent

@[simp] theorem Tree.functionless_leaf (token : Token) : (Tree.leaf token).Functionless :=
  .leaf token

/-- There is none in a node if it is none, and none is in the children. -/
@[simp] theorem Tree.functionless_node {label : Label} {children : List Tree} :
    (Tree.node label children).Functionless ↔
      label ≠ .function ∧ ∀ part ∈ children, part.Functionless := by
  constructor
  · intro functionless
    cases functionless with
    | node proper each => exact ⟨proper, each⟩
  · rintro ⟨proper, each⟩
    exact .node proper each

/-- There is none in the children either. -/
theorem Tree.Functionless.child {tree part : Tree} (functionless : tree.Functionless)
    (member : part ∈ tree.children) : part.Functionless := by
  cases functionless with
  | node _ each => exact each part member
  | leaf | absent => cases member

/-- Trees are evaluated level by level, and callees are applied in a way of their own. -/
structure Eval.Levels (evaluate : Nat → Tree → ScopeId → Eval Value)
    (apply : Nat → Value → List Value → Eval Value) : Prop where
  exhausted : ∀ tree scope, evaluate 0 tree scope = throw .nestingTooDeep
  level : ∀ limit tree scope,
    evaluate (limit + 1) tree scope = Eval.step (evaluate limit) (apply limit) scope tree

namespace Eval.Levels

variable {evaluate : Nat → Tree → ScopeId → Eval Value}
  {apply : Nat → Value → List Value → Eval Value}

/-- **Trees without functions that are equal but for places are evaluated alike.** -/
theorem of_functionless (levels : Levels evaluate apply) {token : Token → Prop} {role : Role}
    {tree other : Tree} (shaped : tree.Shaped token role) (functionless : tree.Functionless)
    (same : tree.SameUnplaced other) (limit : Nat) : evaluate limit other = evaluate limit tree := by
  induction limit generalizing role tree other with
  | zero =>
    funext scope
    rw [levels.exhausted, levels.exhausted]
  | succ limit ih =>
    have several : ∀ {role : Role} {trees others : List Tree},
        (∀ part ∈ trees, part.Shaped token role) → (∀ part ∈ trees, part.Functionless) →
        List.Forall₂ Tree.SameUnplaced trees others →
        List.Forall₂ (SameValue (evaluate limit)) trees others :=
      fun shaped none => Tree.SameUnplaced.forall₂ fun part member _ =>
        ih (shaped part member) (none part member)
    funext scope
    rw [levels.level, levels.level]
    obtain ⟨label, children, rfl⟩ : ∃ label children, tree = .node label children := by
      cases shaped <;> exact ⟨_, _, rfl⟩
    obtain ⟨others, rfl, all⟩ := same.exists_node
    have none : ∀ part ∈ children, part.Functionless := fun part => functionless.child
    cases shaped with
    | program each | block each =>
      simp only [step, statements_of_sameValue (several each none all)]
    | integer | string | boolean | identifier =>
      obtain _ | ⟨first, _ | _⟩ := all
      obtain ⟨token, rfl, text⟩ := first.exists_leaf
      simp only [step, Tree.tokenText, text]
    | binding _ _ value =>
      obtain _ | ⟨first, _ | ⟨second, _ | _⟩⟩ := all
      obtain ⟨token, rfl, text⟩ := first.exists_leaf
      simp only [step, binding, Tree.tokenText, text, ih value (none _ (by simp)) second]
    | returning value | expressing value =>
      obtain _ | ⟨first, _ | _⟩ := all
      simp only [step, returning, firstPart, ih value (none _ (by simp)) first]
    | unary _ _ right =>
      obtain _ | ⟨first, _ | ⟨second, _ | _⟩⟩ := all
      obtain ⟨token, rfl, text⟩ := first.exists_leaf
      simp only [step, unary, Tree.tokenText, text, ih right (none _ (by simp)) second]
    | binary _ _ left right =>
      obtain _ | ⟨first, _ | ⟨second, _ | ⟨third, _ | _⟩⟩⟩ := all
      obtain ⟨token, rfl, text⟩ := second.exists_leaf
      simp only [step, binary, Tree.tokenText, text, ih left (none _ (by simp)) first,
        ih right (none _ (by simp)) third]
    | conditional condition consequence =>
      obtain _ | ⟨first, _ | ⟨second, _ | _⟩⟩ := all
      simp only [step, Eval.conditional, List.headD_nil, ih condition (none _ (by simp)) first,
        ih consequence (none _ (by simp)) second]
    | choice condition consequence alternative =>
      obtain _ | ⟨first, _ | ⟨second, _ | ⟨third, _ | _⟩⟩⟩ := all
      have chosen := ih alternative (none _ (by simp)) third
      -- the alternative is not left out in either tree
      cases alternative with
      | block =>
        obtain ⟨parts, rfl, -⟩ := third.exists_node
        simp only [step, Eval.conditional, List.headD_cons, ih condition (none _ (by simp)) first,
          ih consequence (none _ (by simp)) second, chosen]
    | function =>
      cases functionless with
      | node proper => exact absurd rfl proper
    | @call _ arguments callee each =>
      obtain _ | ⟨first, _ | ⟨second, _ | _⟩⟩ := all
      obtain ⟨others, rfl, all⟩ := second.exists_node
      have inside : ∀ part ∈ arguments, part.Functionless := fun part =>
        (none (.node .arguments arguments) (by simp)).child
      simp only [step, application, Tree.children, ih callee (none _ (by simp)) first,
        values_of_sameValue (several each inside all)]
    | index container position =>
      obtain _ | ⟨first, _ | ⟨second, _ | _⟩⟩ := all
      simp only [step, index, ih container (none _ (by simp)) first,
        ih position (none _ (by simp)) second]
    | array each => simp only [step, array, values_of_sameValue (several each none all)]
    | hash each =>
      refine pairs_of_sameValue ?_ scope []
      have proper : ∀ pair ∈ children, pair.Shaped token .pair ∧ pair.Functionless :=
        fun pair member => ⟨each pair member, none pair member⟩
      refine ((List.forall₂_and_left _ _).mpr ⟨proper, all⟩).imp fun pair other both => ?_
      obtain ⟨⟨shaped, proper⟩, same⟩ := both
      cases shaped with
      | pair key value =>
        obtain ⟨others, rfl, all⟩ := same.exists_node
        obtain _ | ⟨first, _ | ⟨second, _ | _⟩⟩ := all
        exact ⟨_, _, _, _, rfl, rfl, ih key (proper.child (by simp [Tree.children])) first,
          ih value (proper.child (by simp [Tree.children])) second⟩
    | pair => rfl

end Eval.Levels

/-- Evaluations have levels. -/
theorem levels_evaluate : Eval.Levels evaluate apply :=
  ⟨fun _ _ => rfl, fun _ _ _ => rfl⟩

/-- What is required of applications, at the moments of an evaluation. -/
def Applying (allowed : Value → List Value → Store → Prop) : Moment → Store → Prop
  | .applied callee arguments, store => allowed callee arguments store
  | _, _ => True

/-- **Evaluations of which only applications are watched have levels.** -/
theorem levels_watched (allowed : Value → List Value → Store → Prop) (alarm : Fault) :
    Eval.Levels (evaluateWatched (Applying allowed) alarm)
      (applyWatched (Applying allowed) alarm) := by
  refine ⟨fun _ _ => rfl, fun limit tree scope => ?_⟩
  have entered : Eval.watch (Applying allowed) alarm (.entered tree scope) = pure () :=
    Eval.watch_of_forall fun _ => trivial
  have yielded : ∀ value, Eval.watch (Applying allowed) alarm (.yielded tree value) = pure () :=
    fun value => Eval.watch_of_forall fun _ => trivial
  rw [evaluateWatched, entered, pure_bind]
  simp only [yielded, pure_bind, bind_pure]
  rfl

end Scriptlet
