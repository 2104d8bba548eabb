/-
**The frame of an evaluation.**

Functions share the scopes they were made in, and calls nest without bound. Yet an evaluation writes
to one of the scopes it finds only: the one it is made on.

* `Tree.Lets`: the names that a tree binds outside of all functions in it.
* `Scope.Rebinds`, `Store.Framed`: what may become of a scope, and of all scopes of a store, when
  only certain names may be bound on them; scopes may be added.

Main statement: `evaluation_framed`. At every moment of an evaluation, and at its end in whatever
way, the scopes found are as they were, but for names that the tree itself lets on its own scope; an
application leaves them all as they were.
-/
import Scriptlet.Proofs.Evaluation.Step
import Scriptlet.Proofs.Reader.Soundness

namespace Scriptlet

/-! ### The names that a tree lets -/

/-- A name is bound by a statement of the tree that stands outside of all functions in it. -/
inductive Tree.Lets : Tree → String → Prop
  | here {name : Token} {value : Tree} : Lets (.node .letStatement [.leaf name, value]) name.text
  | inside {label : Label} {parts : List Tree} {part : Tree} {name : String} :
      label ≠ .function → part ∈ parts → Lets part name → Lets (.node label parts) name

/-- A part that is evaluated on the scope of a shaped tree stands outside of all functions in it. -/
theorem Tree.Lets.of_operand {token : Token → Prop} {role : Role} {tree part : Tree} {name : String}
    (shaped : tree.Shaped token role) (member : part ∈ tree.operands) (lets : part.Lets name) :
    tree.Lets name := by
  cases shaped with
  | program | block | returning | expressing | conditional | choice | index | array =>
    exact .inside (by simp) member lets
  | integer | string | boolean | identifier | function | pair => cases member
  | binding | unary => exact .inside (by simp) (List.mem_cons_of_mem _ member) lets
  | @binary left operator right =>
    have among : part ∈ [left, .leaf operator, right] := by
      rcases List.mem_cons.mp member with rfl | member
      · exact List.mem_cons_self
      · exact List.mem_cons_of_mem _ (List.mem_cons_of_mem _ member)
    exact .inside (by simp) among lets
  | call callee each =>
    rcases List.mem_cons.mp member with rfl | member
    · exact .inside (by simp) List.mem_cons_self lets
    · exact .inside (by simp) (List.mem_cons_of_mem _ List.mem_cons_self)
        (.inside (by simp) member lets)
  | hash each =>
    obtain ⟨pair, here, child⟩ := List.mem_flatMap.mp member
    refine .inside (by simp) here ?_
    cases each pair here with
    | pair => exact .inside (by simp) child lets

/-! ### Frames -/

/-- A scope has become another, and only certain names may have been bound on it. -/
structure Scope.Rebinds (writes : String → Prop) (before after : Scope) : Prop where
  outer : after.outer = before.outer
  /-- No name is gone. -/
  kept : ∀ name, (before.find? name).isSome → (after.find? name).isSome
  others : ∀ name, ¬ writes name → after.find? name = before.find? name
  /-- Where no name may be bound, nothing at all has changed. -/
  unwritten : (∀ name, ¬ writes name) → after = before

namespace Scope.Rebinds

variable {writes : String → Prop} {before after : Scope}

theorem refl (writes : String → Prop) (scope : Scope) : Rebinds writes scope scope :=
  ⟨rfl, fun _ found => found, fun _ _ => rfl, fun _ => rfl⟩

/-- One more of the names is bound. -/
theorem bind (rebinds : Rebinds writes before after) {name : String} (written : writes name)
    (value : Value) : Rebinds writes before (after.bind name value) where
  outer := rebinds.outer
  kept other found := by
    rw [Scope.find?_bind]
    split
    · rfl
    · exact rebinds.kept other found
  others other unwritten := by
    have distinct : other ≠ name := fun same => unwritten (same ▸ written)
    rw [Scope.find?_bind, if_neg distinct]
    exact rebinds.others other unwritten
  unwritten never := absurd written (never name)

end Scope.Rebinds

/-- The scopes of a store are there in another one, and only certain names may have been bound on
them. -/
def Store.Framed (writes : ScopeId → String → Prop) (before after : Store) : Prop :=
  ∀ (id : ScopeId) (scope : Scope), before.scopes[id]? = some scope →
    ∃ now, after.scopes[id]? = some now ∧ scope.Rebinds (writes id) now

namespace Store.Framed

variable {writes : ScopeId → String → Prop} {before after : Store}

theorem refl (writes : ScopeId → String → Prop) (store : Store) : Framed writes store store :=
  fun _ scope found => ⟨scope, found, .refl _ scope⟩

/-- A scope where no name may be bound is as it was. -/
theorem unwritten (framed : Framed writes before after) {id : ScopeId}
    (inside : id < before.scopes.size) (never : ∀ name, ¬ writes id name) :
    after.scopes[id]? = before.scopes[id]? := by
  have found := Array.getElem?_eq_getElem inside
  obtain ⟨now, here, rebinds⟩ := framed id _ found
  rw [here, found, rebinds.unwritten never]

/-- No scope is gone. -/
theorem size_le (framed : Framed writes before after) : before.scopes.size ≤ after.scopes.size := by
  refine Nat.le_of_not_lt fun less => ?_
  obtain ⟨now, here, -⟩ := framed _ _ (Array.getElem?_eq_getElem less)
  simp at here

/-- A name is bound on a new scope, or one of the names on the scope it may be bound on. -/
theorem bind (framed : Framed writes before after) {id : ScopeId} {name : String}
    (written : before.scopes.size ≤ id ∨ writes id name) (value : Value) :
    Framed writes before (after.bind id name value) := by
  intro other scope found
  obtain ⟨now, here, rebinds⟩ := framed other scope found
  simp only [Store.bind, Array.getElem?_modify]
  split
  next same =>
    subst same
    have inside : id < before.scopes.size := (Array.getElem?_eq_some_iff.mp found).1
    have written : writes id name := written.resolve_left (Nat.not_le_of_lt inside)
    exact ⟨now.bind name value, by rw [here]; rfl, rebinds.bind written value⟩
  next => exact ⟨now, here, rebinds⟩

/-- A new scope is added. -/
theorem enclose (framed : Framed writes before after) (outer : Option ScopeId) :
    Framed writes before (after.enclose outer).2 := by
  intro id scope found
  obtain ⟨now, here, rebinds⟩ := framed id scope found
  refine ⟨now, ?_, rebinds⟩
  have inside : id < after.scopes.size := (Array.getElem?_eq_some_iff.mp here).1
  simp only [Store.enclose]
  rw [Array.getElem?_push, if_neg (Nat.ne_of_lt inside)]
  exact here

end Store.Framed

/-! ### The policy of a frame -/

/-- A tree may be evaluated on a scope that is new, or where the names it lets may be bound. -/
def framing (writes : ScopeId → String → Prop) (base : Store) : Policy where
  good store := Store.Framed writes base store
  moves _ _ := True
  faults _ := True
  refl _ := trivial
  trans _ _ := trivial
  admits _ scope tree := base.scopes.size ≤ scope ∨
    (∃ token role, tree.Shaped token role) ∧ ∀ name, tree.Lets name → writes scope name
  held _ _ := True
  binds _ scope name := base.scopes.size ≤ scope ∨ writes scope name
  admits_moves _ admitted := admitted
  held_moves _ held := held
  binds_moves _ binds := binds
  bind framed binds _ := ⟨framed.bind binds _, trivial⟩
  identify framed := ⟨framed, trivial⟩
  print _ framed := ⟨framed, trivial⟩
  enter framed _ :=
    ⟨framed.enclose _, trivial, Or.inl framed.size_le, fun _ => Or.inl framed.size_le⟩
  lookup _ _ := trivial
  operand admitted member := by
    rcases admitted with fresh | ⟨⟨token, role, shaped⟩, allowed⟩
    · exact Or.inl fresh
    · obtain ⟨inner, part⟩ := shaped.operand member
      exact Or.inr ⟨⟨token, inner, part⟩, fun name lets =>
        allowed name (.of_operand shaped member lets)⟩
  consumed _ _ := Or.inr fun _ => trivial
  named admitted read := by
    rcases admitted with fresh | ⟨⟨_, _, shaped⟩, allowed⟩
    · exact Or.inl fresh
    · cases shaped with
      | binding =>
        cases read
        exact Or.inr (allowed _ .here)
  literal _ _ _ := trivial
  function _ _ _ _ := trivial
  null := trivial
  boolean _ := trivial
  builtin _ := trivial
  string _ _ := trivial
  wrapped _ := trivial
  measured _ := trivial
  array _ _ _ := trivial
  hash _ _ _ := trivial
  element _ _ := trivial
  returned _ := trivial
  division := trivial
  nesting := trivial
  flaw _ _ := trivial
  inspect _ _ := trivial

/-- The moments that the policy allows are framed. -/
theorem framing.framed_of_allows {writes : ScopeId → String → Prop} {base : Store} (moment : Moment)
    (store : Store) (allowed : (framing writes base).Allows moment store) :
    base.Framed writes store := by
  cases moment <;> exact allowed.1

/-! ### Main statement -/

/-- **The frame of an evaluation.** From any store, for every limit: at every moment of the
evaluation of a shaped tree on a scope, and at its end in a value, a signal or a fault, every other
scope that was there is as it was, and on the scope itself no name is gone and only names that the
tree lets outside of functions may have been bound. What the reader accepts is shaped
(`parse_shaped`). The application of any callee to any arguments leaves every scope that was there
as it was. -/
theorem evaluation_framed (limit : Nat) (store : Store) :
    (∀ {token role tree}, tree.Shaped token role → ∀ scope : ScopeId,
      let framed := Store.Framed (fun id name => id = scope ∧ tree.Lets name) store
      AlwaysEvaluating (fun _ => framed) limit tree scope store ∧
        framed ((evaluate limit tree scope).runFrom store).2 ∧
        ∀ id < store.scopes.size, id ≠ scope →
          ((evaluate limit tree scope).runFrom store).2.scopes[id]? = store.scopes[id]?) ∧
    (∀ callee arguments,
      AlwaysApplying (fun _ => Store.Framed (fun _ _ => False) store) limit callee arguments store ∧
        ∀ id < store.scopes.size,
          ((apply limit callee arguments).runFrom store).2.scopes[id]? = store.scopes[id]?) := by
  constructor
  · intro token role tree shaped scope framed
    have admitted : (framing (fun id name => id = scope ∧ tree.Lets name) store).admits store scope
        tree := Or.inr ⟨⟨token, role, shaped⟩, fun name lets => ⟨rfl, lets⟩⟩
    have agree := fun alarm => Policy.evaluate_agree alarm framing.framed_of_allows limit
      (.refl _ store) admitted
    have kept : framed ((evaluate limit tree scope).runFrom store).2 := (agree .valueMissing).good
    refine ⟨fun alarm => (agree alarm).same, kept, fun id inside other => ?_⟩
    exact kept.unwritten inside fun name written => other written.1
  · intro callee arguments
    have agree : ∀ alarm, (framing (fun _ _ => False) store).Agree store
        (applyWatched (fun _ => store.Framed fun _ _ => False) alarm limit callee arguments)
        (apply limit callee arguments) :=
      fun alarm => Policy.apply_agree alarm framing.framed_of_allows limit (.refl _ store) trivial
        fun _ _ => trivial
    have kept : store.Framed (fun _ _ => False) ((apply limit callee arguments).runFrom store).2 :=
      (agree .valueMissing).good
    refine ⟨fun alarm => (agree alarm).same, fun id inside => ?_⟩
    exact kept.unwritten inside fun _ written => written

/-- A program whose function lets a name and is called, run on a scope within another one. -/
theorem evaluation_framed_within :
    let store := (Store.initial.enclose (some Store.root)).2
    ∃ program, parse "let f = fn(x) \x7b let y = x; y \x7d; f(1)" = .ok program ∧
      program.Shaped Token.InRange .program ∧
      ((evaluate 99 program 1).runFrom store).2.scopes[Store.root]? =
        store.scopes[Store.root]? := by
  intro store
  have accepted : ∃ program, parse "let f = fn(x) \x7b let y = x; y \x7d; f(1)" = .ok program :=
    ⟨_, rfl⟩
  obtain ⟨program, accepted⟩ := accepted
  have shaped := parse_shaped accepted
  have framed := (evaluation_framed 99 store).1 shaped 1
  exact ⟨program, accepted, shaped, framed.2.2 Store.root (by decide) (by decide)⟩

end Scriptlet
