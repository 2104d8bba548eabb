/-
**What is held in values and on scopes.**

* `Value.parts`: the values that a value consists of.
* `Value.Throughout`: a property of a value and of all values in it, however deep.
* `Store.Holds`: a property of every value bound on a scope of a store.

Main statements: a property held on all scopes is kept by everything that is done to a store
(`Store.Holds.bind`, `Store.Holds.enclose`), and a name found has it (`Store.Holds.of_lookup?`).
-/
import Scriptlet.Store

namespace Scriptlet

namespace Value

/-- The values that a value consists of. -/
def parts : Value → List Value
  | array _ elements => elements
  | hash _ pairs => pairs.flatMap fun pair => [pair.1, pair.2]
  | returned _ operand => [operand]
  | _ => []

/-- A property of a value and of all values in it. -/
inductive Throughout (holds : Value → Prop) : Value → Prop
  | intro {value : Value} : holds value → (∀ part ∈ value.parts, Throughout holds part) →
      Throughout holds value

namespace Throughout

variable {holds : Value → Prop} {value : Value}

/-- The property of the value itself. -/
theorem here (throughout : Throughout holds value) : holds value := by
  cases throughout with
  | intro here _ => exact here

/-- The property of the values in it. -/
theorem part (throughout : Throughout holds value) :
    ∀ part ∈ value.parts, Throughout holds part := by
  cases throughout with
  | intro _ parts => exact parts

/-- A value without parts. -/
theorem of_parts_eq_nil (here : holds value) (simple : value.parts = []) :
    Throughout holds value :=
  .intro here fun part member => by simp [simple] at member

theorem array {identity : Nat} {elements : List Value} (here : holds (.array identity elements))
    (each : ∀ element ∈ elements, Throughout holds element) :
    Throughout holds (.array identity elements) :=
  .intro here each

theorem hash {identity : Nat} {pairs : List (Value × Value)} (here : holds (.hash identity pairs))
    (each : ∀ pair ∈ pairs, Throughout holds pair.1 ∧ Throughout holds pair.2) :
    Throughout holds (.hash identity pairs) := by
  refine .intro here fun part member => ?_
  obtain ⟨pair, inside, which⟩ := List.mem_flatMap.mp member
  rcases List.mem_cons.mp which with rfl | which
  · exact (each pair inside).1
  · rw [List.mem_singleton.mp which]
    exact (each pair inside).2

/-- A weaker property holds throughout as well. -/
theorem mono {weaker : Value → Prop} (throughout : Throughout holds value)
    (weakens : ∀ value, holds value → weaker value) : Throughout weaker value := by
  induction throughout with
  | intro here _ ih => exact .intro (weakens _ here) ih

end Throughout

end Value

namespace Scope

/-- What is bound among others after a binding is that or was bound before. -/
theorem mem_bindAmong {name : String} {value : Value} {bindings : List (String × Value)}
    {pair : String × Value} (member : pair ∈ bindAmong name value bindings) :
    pair = (name, value) ∨ pair ∈ bindings := by
  induction bindings with
  | nil => simpa [bindAmong] using member
  | cons first rest ih =>
    unfold bindAmong at member
    split at member
    · rcases List.mem_cons.mp member with here | later
      · exact Or.inl here
      · exact Or.inr (List.mem_cons_of_mem _ later)
    · rcases List.mem_cons.mp member with here | later
      · exact Or.inr (here ▸ List.mem_cons_self)
      · exact (ih later).imp_right (List.mem_cons_of_mem _)

end Scope

namespace Store

/-- The one scope of the initial store lies in no other and binds nothing. -/
theorem eq_of_initial {id : ScopeId} {scope : Scope}
    (found : Store.initial.scopes[id]? = some scope) : scope = ⟨none, []⟩ := by
  cases id with
  | zero => simpa [Store.initial, eq_comm] using found
  | succ id => simp [Store.initial] at found

/-- A property of every value bound on a scope of a store. -/
def Holds (holds : Value → Prop) (store : Store) : Prop :=
  ∀ (id : ScopeId) (scope : Scope), store.scopes[id]? = some scope →
    ∀ pair ∈ scope.bindings, holds pair.2

/-- A chain consists of scopes of the store. -/
theorem mem_chainWithin {store : Store} {scope : Scope} {bound : Nat} {id : ScopeId}
    (member : scope ∈ store.chainWithin bound id) :
    ∃ other : ScopeId, store.scopes[other]? = some scope := by
  induction bound generalizing id with
  | zero => simp [chainWithin] at member
  | succ bound ih =>
    unfold chainWithin at member
    split at member
    next here found =>
      rcases List.mem_cons.mp member with rfl | later
      · exact ⟨id, found⟩
      · split at later
        · exact ih later
        · cases later
    · cases member

namespace Holds

variable {holds : Value → Prop} {store : Store}

/-- Nothing is bound at the start. -/
theorem initial : Store.initial.Holds holds := by
  intro id scope found pair member
  rw [eq_of_initial found] at member
  cases member

/-- A name that is found has a value with the property. -/
theorem of_lookup? (all : store.Holds holds) {id : ScopeId} {name : String} {value : Value}
    (found : store.lookup? id name = some value) : holds value := by
  obtain ⟨scope, member, bound⟩ := List.exists_of_findSome?_eq_some found
  obtain ⟨other, here⟩ := mem_chainWithin member
  obtain ⟨before, after, split, -⟩ := List.lookup_eq_some_iff.mp bound
  exact all other scope here (name, value) (by simp [split])

theorem bind (all : store.Holds holds) (id : ScopeId) (name : String) {value : Value}
    (here : holds value) : (store.bind id name value).Holds holds := by
  intro other scope found pair member
  simp only [Store.bind, Array.getElem?_modify] at found
  split at found
  · obtain ⟨old, there, rfl⟩ := Option.map_eq_some_iff.mp found
    rcases Scope.mem_bindAmong member with rfl | before
    · exact here
    · exact all other old there pair before
  · exact all other scope found pair member

theorem enclose (all : store.Holds holds) (outer : Option ScopeId) :
    (store.enclose outer).2.Holds holds := by
  intro id scope found pair member
  simp only [Store.enclose, Array.getElem?_push] at found
  split at found
  · obtain rfl := Option.some.inj found
    cases member
  · exact all id scope found pair member

/-- A weaker property is held as well. -/
theorem mono {weaker : Value → Prop} (all : store.Holds holds)
    (weakens : ∀ value, holds value → weaker value) : store.Holds weaker :=
  fun id scope found pair member => weakens _ (all id scope found pair member)

end Holds

end Store

end Scriptlet
