/-
**The text of a tree does not depend on places.**

* `Fault.unplaced`: a fault without the places of the tokens in it.

Main statement: `Tree.render_unplaced`, a tree without the places of its tokens has the same text,
or lacks it for the same reason; the text takes as many nested calls (`Tree.depth_unplaced`).
-/
import Scriptlet.Tree.Render

namespace Scriptlet

/-- A fault without the places of the tokens in it. -/
def Fault.unplaced : Fault → Fault
  | .tokenMissing tree => .tokenMissing tree.unplaced
  | fault => fault

section Results

variable {α β : Type} (change : Fault → Fault)

@[simp] theorem mapError_bind (result : Except Fault α) (next : α → Except Fault β) :
    (result >>= next).mapError change =
      result.mapError change >>= fun value => (next value).mapError change := by
  cases result <;> rfl

@[simp] theorem mapError_map (result : Except Fault α) (see : α → β) :
    (see <$> result).mapError change = see <$> result.mapError change := by
  cases result <;> rfl

@[simp] theorem mapError_ok (value : α) : (Except.ok value).mapError change = .ok value := rfl

@[simp] theorem mapError_error (fault : Fault) :
    (Except.error fault : Except Fault α).mapError change = .error (change fault) := rfl

end Results

namespace Tree

/-- What holds of a tree if it holds of its children holds of all trees. -/
theorem induction_children {holds : Tree → Prop} (leaf : ∀ token, holds (.leaf token))
    (absent : holds .absent)
    (node : ∀ label children, (∀ part ∈ children, holds part) → holds (.node label children)) :
    ∀ tree, holds tree :=
  @Tree.rec holds (fun children => ∀ part ∈ children, holds part) node leaf absent
    (List.forall_mem_nil _) fun _ _ first rest => List.forall_mem_cons.mpr ⟨first, rest⟩

/-- A node keeps its label, and the places go from its children. -/
@[simp] theorem node_unplaced (label : Label) (children : List Tree) :
    (node label children).unplaced = .node label (children.map unplaced) := by
  rw [unplaced, unplacedAll_eq_map]

theorem children_unplaced (tree : Tree) : tree.unplaced.children = tree.children.map unplaced := by
  cases tree <;> simp [children, unplaced, unplacedAll_eq_map]

/-- The tokens lose their places, and nothing else. -/
theorem tokens_unplaced (tree : Tree) : tree.unplaced.tokens = tree.tokens.map Token.unplaced := by
  induction tree using induction_children with
  | leaf | absent => rfl
  | node label children each =>
    rw [node_unplaced, tokens, tokens, tokensAll_eq_flatMap, tokensAll_eq_flatMap, List.flatMap_map,
      List.map_flatMap, List.flatMap_def, List.flatMap_def, List.map_congr_left each]

/-- Tokens that are children lose their places. -/
theorem filterMap_token?_unplaced (trees : List Tree) :
    (trees.map unplaced).filterMap token? = (trees.filterMap token?).map Token.unplaced := by
  induction trees with
  | nil => rfl
  | cons tree rest ih =>
    cases tree with
    | leaf token => exact congrArg (List.cons token.unplaced) ih
    | _ => exact ih

theorem tokenText_unplaced (tree : Tree) :
    tree.unplaced.tokenText = tree.tokenText.mapError Fault.unplaced := by
  cases tree with
  | leaf | absent => rfl
  | node label children =>
    rcases children with _ | ⟨first, _ | ⟨second, rest⟩⟩
    · rfl
    · cases first <;> rfl
    · simp [tokenText, Fault.unplaced]

/-! ### Texts -/

section Render

/-- A tree has its text whatever the places in it. -/
abbrev Settled (tree : Tree) : Prop :=
  tree.unplaced.render = tree.render.mapError Fault.unplaced

variable {trees : List Tree}

theorem renderAll_unplaced (each : ∀ part ∈ trees, part.Settled) :
    renderAll (trees.map unplaced) = (renderAll trees).mapError Fault.unplaced := by
  induction trees with
  | nil => rfl
  | cons tree rest ih =>
    obtain ⟨here, later⟩ := List.forall_mem_cons.mp each
    rw [List.map_cons, renderAll, renderAll, here, ih later]
    simp

theorem renderChildren_unplaced {tree : Tree} (each : ∀ part ∈ tree.children, part.Settled) :
    renderChildren tree.unplaced = (renderChildren tree).mapError Fault.unplaced := by
  cases tree with
  | node label children =>
    rw [node_unplaced]
    exact renderAll_unplaced each
  | leaf | absent => rfl

theorem renderAlternative_unplaced (each : ∀ part ∈ trees, part.Settled) :
    renderAlternative (trees.map unplaced) =
      (renderAlternative trees).mapError Fault.unplaced := by
  cases trees with
  | nil => rfl
  | cons tree rest =>
    have here := (List.forall_mem_cons.mp each).1
    cases tree with
    | absent => rfl
    | leaf => rfl
    | node label children =>
      simp only [Settled, node_unplaced] at here
      simp [renderAlternative, here]

theorem renderPair_unplaced {tree : Tree} (each : ∀ part ∈ tree.children, part.Settled) :
    renderPair tree.unplaced = (renderPair tree).mapError Fault.unplaced := by
  cases tree with
  | leaf | absent => rfl
  | node label children =>
    rw [node_unplaced]
    match children, each with
    | [], _ | [_], _ => rfl
    | [key, value], each =>
      have first : key.Settled := each key List.mem_cons_self
      have second : value.Settled := each value (List.mem_cons_of_mem _ List.mem_cons_self)
      simp [renderPair, first, second]
    | _ :: _ :: _ :: _, _ => simp [renderPair, Fault.unplaced]

theorem renderPairs_unplaced
    (each : ∀ part ∈ trees, ∀ inner ∈ part.children, inner.Settled) :
    renderPairs (trees.map unplaced) = (renderPairs trees).mapError Fault.unplaced := by
  induction trees with
  | nil => rfl
  | cons tree rest ih =>
    obtain ⟨here, later⟩ := List.forall_mem_cons.mp each
    rw [List.map_cons, renderPairs, renderPairs, renderPair_unplaced here, ih later]
    simp

/-- A tree of which the children and their children have their texts whatever the places. -/
theorem render_node (label : Label) {children : List Tree}
    (each : ∀ part ∈ children, part.Settled ∧ ∀ inner ∈ part.children, inner.Settled) :
    (node label children).Settled := by
  have all := renderAll_unplaced fun part member => (each part member).1
  have settled : ∀ part ∈ children, part.Settled := fun part member => (each part member).1
  have texts : ∀ part ∈ children,
      renderChildren part.unplaced = (renderChildren part).mapError Fault.unplaced :=
    fun part member => renderChildren_unplaced (each part member).2
  have token := tokenText_unplaced (node label children)
  rw [node_unplaced] at token
  show (node label children).unplaced.render = _
  rw [node_unplaced]
  cases label with
  | program | block | array | parameters | arguments | pair | other => simp [render, all]
  | hash => simp [render, renderPairs_unplaced fun part member => (each part member).2]
  | integer | boolean | identifier | string => simp [render, token]
  | returnStatement | expressionStatement =>
    cases children with
    | nil => rfl
    | cons first rest => simp [render, settled first List.mem_cons_self]
  | letStatement | unary | index =>
    match children, settled with
    | [], _ | [_], _ => rfl
    | [first, second], settled =>
      simp [render, settled first (by simp), settled second (by simp)]
    | _ :: _ :: _ :: _, _ => simp [render, Fault.unplaced]
  | function | call =>
    match children, settled, texts with
    | [], _, _ | [_], _, _ => rfl
    | [first, second], settled, texts =>
      simp [render, settled first (by simp), settled second (by simp), texts first (by simp),
        texts second (by simp)]
    | _ :: _ :: _ :: _, _, _ => simp [render, Fault.unplaced]
  | binary =>
    match children, settled with
    | [], _ | [_], _ | [_, _], _ => rfl
    | [first, second, third], settled =>
      simp [render, settled first (by simp), settled second (by simp), settled third (by simp)]
    | _ :: _ :: _ :: _ :: _, _ => simp [render, Fault.unplaced]
  | conditional =>
    match children, settled with
    | [], _ => rfl
    | [first], settled => simp [render, settled first (by simp), Fault.unplaced]
    | first :: second :: rest, settled =>
      have later : ∀ part ∈ rest, part.Settled := fun part member => settled part (by simp [member])
      have alternative := renderAlternative_unplaced later
      simp [render, settled first (by simp), settled second (by simp), alternative]

/-- **The text of a tree does not depend on places.** -/
theorem render_unplaced (tree : Tree) :
    tree.unplaced.render = tree.render.mapError Fault.unplaced := by
  have deep : tree.Settled ∧ ∀ inner ∈ tree.children, inner.Settled := by
    induction tree using induction_children with
    | leaf | absent => exact ⟨rfl, fun _ member => by cases member⟩
    | node label children each =>
      exact ⟨render_node label each, fun part member => (each part member).1⟩
  exact deep.1

mutual

/-- The text of a tree takes as many nested calls without places. -/
theorem depth_unplaced : (tree : Tree) → tree.unplaced.depth = tree.depth
  | .node label children => by simp only [unplaced, depth, depthAll_unplaced children]
  | .leaf _ | .absent => rfl

/-- The same of trees. -/
theorem depthAll_unplaced : (trees : List Tree) → depthAll (unplacedAll trees) = depthAll trees
  | [] => rfl
  | tree :: rest => by
    simp only [unplacedAll, depthAll, depth_unplaced tree, depthAll_unplaced rest]

end

end Render

end Tree

end Scriptlet
