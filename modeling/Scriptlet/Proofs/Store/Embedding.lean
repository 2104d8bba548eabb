/-
**The store of one run as it stands in another.**

* `Embedding.image`: a scope as it stands in the other run, inside of the image of the scope around
  it, with what is bound there besides in front.
* `Embedding.Stands`: every scope of one store stands at its place in another one, the next scope
  and the next identity have their places there as well, and the same is printed from some point on.

Main statements: a store stands in another after both have bound a name, given out an identity,
printed a line or made a scope alike (`Stands.bind`, `Stands.identify`, `Stands.print`,
`Stands.enclose`), and a visible name has the image of its value there (`Stands.lookup?`).
-/
import Scriptlet.Proofs.Value.Embedding

namespace Scriptlet

namespace Store

/-- A binding adds no scope. -/
@[simp] theorem size_bind (store : Store) (id : ScopeId) (name : String) (value : Value) :
    (store.bind id name value).scopes.size = store.scopes.size := by
  simp [bind]

@[simp] theorem size_enclose (store : Store) (outer : Option ScopeId) :
    (store.enclose outer).2.scopes.size = store.scopes.size + 1 := by
  simp [enclose]

end Store

namespace Embedding

variable (embedding : Embedding)

/-- A scope as it stands in the other run. -/
def image (id : ScopeId) (scope : Scope) : Scope :=
  ⟨(scope.outer.map embedding.scope).or embedding.around,
    embedding.beside id ++ scope.bindings.map fun pair => (pair.1, embedding.value pair.2)⟩

/-- One store stands in another. -/
structure Stands (left right : Store) : Prop where
  scopes : ∀ id, right.scopes[embedding.scope id]? = left.scopes[id]?.map (embedding.image id)
  around : ∀ id, embedding.around = some id → right.scopes[id]? = some ⟨none, []⟩
  /-- A scope lies in an older one. -/
  nested : ∀ {id : ScopeId} {scope : Scope} {outer : ScopeId}, left.scopes[id]? = some scope →
    scope.outer = some outer → outer < id
  admitted : left.Holds (embedding.Admits left.scopes.size)
  nextScope : ∀ more, embedding.scope (left.scopes.size + more) = right.scopes.size + more
  nextIdentity : ∀ more, embedding.identity (left.identities + more) = right.identities + more
  /-- Nothing is bound besides on scopes that are still to be made. -/
  bare : ∀ id, left.scopes.size ≤ id → embedding.beside id = []
  printed : right.printed.toList = embedding.printed ++ left.printed.toList

variable {embedding} {id : ScopeId} {name : String}

/-! ### One scope -/

/-- A name that is not bound besides has the image of its value. -/
theorem find?_image (scope : Scope) (free : ∀ pair ∈ embedding.beside id, pair.1 ≠ name) :
    (embedding.image id scope).find? name = (scope.find? name).map embedding.value := by
  have besides : (embedding.beside id).lookup name = none := by
    rw [List.lookup_eq_none_iff]
    intro pair member
    rw [bne_iff_ne]
    exact fun same => free pair member same.symm
  simp only [image, Scope.find?, List.lookup_append, besides, Option.none_or]
  induction scope.bindings with
  | nil => rfl
  | cons pair rest ih =>
    obtain ⟨first, old⟩ := pair
    by_cases here : name = first
    · simp [here]
    · have unequal : (name == first) = false := beq_eq_false_iff_ne.mpr here
      simpa [List.lookup_cons, unequal] using ih

/-- A name that is not bound in front is bound behind. -/
theorem bindAmong_append {front : List (String × Value)} (free : ∀ pair ∈ front, pair.1 ≠ name)
    (value : Value) (back : List (String × Value)) :
    Scope.bindAmong name value (front ++ back) = front ++ Scope.bindAmong name value back := by
  induction front with
  | nil => rfl
  | cons pair rest ih =>
    obtain ⟨other, later⟩ := List.forall_mem_cons.mp free
    rw [List.cons_append, Scope.bindAmong, if_neg other, ih later, List.cons_append]

/-- The image of a scope where a name is bound. -/
theorem image_bind (scope : Scope) (free : ∀ pair ∈ embedding.beside id, pair.1 ≠ name)
    (value : Value) :
    embedding.image id (scope.bind name value) =
      (embedding.image id scope).bind name (embedding.value value) := by
  have mapped : ∀ bindings : List (String × Value),
      (Scope.bindAmong name value bindings).map (fun pair => (pair.1, embedding.value pair.2)) =
        Scope.bindAmong name (embedding.value value)
          (bindings.map fun pair => (pair.1, embedding.value pair.2)) := by
    intro bindings
    induction bindings with
    | nil => rfl
    | cons pair rest ih =>
      simp only [Scope.bindAmong, List.map_cons]
      split
      · rfl
      · rw [List.map_cons, ih]
  simp only [image, Scope.bind, mapped, bindAmong_append free]

/-! ### Stores -/

namespace Stands

variable {left right : Store} (stands : embedding.Stands left right)

include stands

/-- Nothing is found on the scope around, nor outside of it. -/
theorem findSome?_around {outer : ScopeId} (around : embedding.around = some outer) (bound : Nat) :
    (right.chainWithin bound outer).findSome? (fun scope => scope.find? name) = none := by
  cases bound with
  | zero => rfl
  | succ bound =>
    simp only [Store.chainWithin, stands.around outer around]
    rfl

/-- What is found of a visible name, with any bounds that let the chains go to their ends. -/
theorem findSome?_chainWithin (visible : embedding.Visible name) {bound other : Nat}
    (within : id < bound) (within' : embedding.scope id < other) :
    (right.chainWithin other (embedding.scope id)).findSome? (fun scope => scope.find? name) =
      ((left.chainWithin bound id).findSome? fun scope => scope.find? name).map
        embedding.value := by
  induction id using Nat.strongRecOn generalizing bound other with
  | ind id ih =>
    obtain ⟨bound, rfl⟩ := Nat.exists_eq_add_one_of_ne_zero (Nat.ne_zero_of_lt within)
    obtain ⟨other, rfl⟩ := Nat.exists_eq_add_one_of_ne_zero (Nat.ne_zero_of_lt within')
    simp only [Store.chainWithin, stands.scopes id]
    cases found : left.scopes[id]? with
    | none => rfl
    | some scope =>
      simp only [Option.map_some, List.findSome?_cons, find?_image scope (visible id)]
      cases scope.find? name with
      | some value => rfl
      | none =>
        cases encloses : scope.outer with
        | some outer =>
          have older : outer < id := stands.nested found encloses
          have before : embedding.scope outer < embedding.scope id := embedding.rising older
          simp only [image, encloses, Option.map_some, Option.some_or, Option.map_none]
          exact ih outer older (Nat.lt_of_lt_of_le older (Nat.le_of_lt_succ within))
            (Nat.lt_of_lt_of_le before (Nat.le_of_lt_succ within'))
        | none =>
          simp only [image, encloses, Option.map_none, Option.none_or]
          cases around : embedding.around with
          | none => rfl
          | some outer => exact stands.findSome?_around around other

/-- **A visible name has the image of its value.** -/
theorem lookup? (visible : embedding.Visible name) (id : ScopeId) :
    right.lookup? (embedding.scope id) name = (left.lookup? id name).map embedding.value :=
  stands.findSome?_chainWithin visible (Nat.lt_succ_self id) (Nat.lt_succ_self _)

/-- What is bound on a scope stands behind what is bound on its place besides. -/
theorem bindings (within : id < left.scopes.size) :
    right.bindings (embedding.scope id) =
      embedding.beside id ++
        (left.bindings id).map fun pair => (pair.1, embedding.value pair.2) := by
  have found := Array.getElem?_eq_getElem within
  simp [Store.bindings, stands.scopes id, found, image]

/-- A name is bound in both, where nothing besides has it. -/
theorem bind {value : Value} (admitted : embedding.Admits left.scopes.size value)
    (free : ∀ pair ∈ embedding.beside id, pair.1 ≠ name) :
    embedding.Stands (left.bind id name value)
      (right.bind (embedding.scope id) name (embedding.value value)) where
  scopes other := by
    simp only [Store.bind, Array.getElem?_modify, stands.scopes other, scope_inj]
    split
    next same =>
      subst same
      simp only [Option.map_map]
      congr 1
      funext scope
      exact (image_bind scope free value).symm
    next => rfl
  around outer around := by
    have apart : embedding.scope id ≠ outer :=
      fun same => embedding.outside id (same ▸ around)
    simp only [Store.bind, Array.getElem?_modify, if_neg apart]
    exact stands.around outer around
  nested {other scope outer} found enclosing := by
    simp only [Store.bind, Array.getElem?_modify] at found
    split at found
    · obtain ⟨old, there, rfl⟩ := Option.map_eq_some_iff.mp found
      exact stands.nested there enclosing
    · exact stands.nested found enclosing
  admitted := by
    rw [Store.size_bind]
    exact stands.admitted.bind id name admitted
  nextScope more := by simpa using stands.nextScope more
  nextIdentity := stands.nextIdentity
  bare other within := stands.bare other (by simpa using within)
  printed := stands.printed

/-- The next identity is given out in both. -/
theorem identify : embedding.Stands left.identify.2 right.identify.2 where
  scopes := stands.scopes
  around := stands.around
  nested := stands.nested
  admitted := stands.admitted
  nextScope := stands.nextScope
  nextIdentity more := by
    have next := stands.nextIdentity (more + 1)
    simp only [Store.identify, Nat.add_assoc, Nat.add_comm 1]
    exact next
  bare := stands.bare
  printed := stands.printed

/-- The identity given out has its place. -/
theorem identify_fst : right.identify.1 = embedding.identity left.identify.1 :=
  (stands.nextIdentity 0).symm

/-- A line is printed in both. -/
theorem print (line : String) : embedding.Stands (left.print line) (right.print line) where
  scopes := stands.scopes
  around := stands.around
  nested := stands.nested
  admitted := stands.admitted
  nextScope := stands.nextScope
  nextIdentity := stands.nextIdentity
  bare := stands.bare
  printed := by simp [Store.print, stands.printed]

/-- The scope that is made next has its place. -/
theorem enclose_fst (outer : Option ScopeId) :
    (right.enclose (outer.map embedding.scope)).1 = embedding.scope (left.enclose outer).1 :=
  (stands.nextScope 0).symm

/-- A scope is made in both within one that is there. -/
theorem enclose {outer : ScopeId} (within : outer < left.scopes.size) :
    embedding.Stands (left.enclose (some outer)).2
      (right.enclose (some (embedding.scope outer))).2 where
  scopes id := by
    have next : embedding.scope left.scopes.size = right.scopes.size := stands.nextScope 0
    have place : embedding.scope id = right.scopes.size ↔ id = left.scopes.size := by
      rw [← next, scope_inj]
    simp only [Store.enclose, Array.getElem?_push, place, stands.scopes id]
    split
    next fresh =>
      subst fresh
      simp [image, stands.bare _ (Nat.le_refl _)]
    next => rfl
  around id around := by
    have found := stands.around id around
    have inside : id < right.scopes.size := (Array.getElem?_eq_some_iff.mp found).1
    simp only [Store.enclose]
    rw [Array.getElem?_push, if_neg (Nat.ne_of_lt inside)]
    exact found
  nested {id scope enclosing} found encloses := by
    simp only [Store.enclose, Array.getElem?_push] at found
    split at found
    next fresh =>
      obtain rfl := Option.some.inj found
      obtain rfl := Option.some.inj encloses
      exact fresh ▸ within
    next => exact stands.nested found encloses
  admitted := by
    refine (stands.admitted.enclose _).mono fun value admitted => admitted.mono ?_
    rw [Store.size_enclose]
    exact Nat.le_succ _
  nextScope more := by
    have next := stands.nextScope (more + 1)
    simp only [Store.size_enclose, Nat.add_assoc, Nat.add_comm 1]
    exact next
  nextIdentity := stands.nextIdentity
  bare id within := by
    rw [Store.size_enclose] at within
    exact stands.bare id (Nat.le_of_succ_le within)
  printed := stands.printed

end Stands

end Embedding

end Scriptlet
