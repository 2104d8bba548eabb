/-
**The way outward from a scope.**

What is done at a scope may lead to the scope around it, and on from there: a name is looked for, or
the scopes around are counted. On a store whose scopes lie in older ones this comes to an end at the
root.

* `Store.outers`: what each scope lies in, in the order in which the scopes were made.
* `Store.Outward`: the scopes that are passed on the way outward. Nothing bounds it but the scopes
  themselves.
* `Store.Search`: the search for a name, from scope to scope on the same way.
* `Store.Ordered`: every scope lies in none or in an older one.
* `Store.WellFounded`: the root lies in no scope, and every other scope in an older one.

Main statements: `Store.Ordered.lookup?_eq`, where scopes lie in older ones, a name is looked up on
each scope of the way outward in turn; `Store.WellFounded.rooted`. From every scope of a well-founded
store the way outward ends at the root, over ever older scopes; the search for any name ends, and
`Store.lookup?` finds what it finds; and `Store.depth` counts the scopes around.
-/
import Scriptlet.Proofs.Value.Held

namespace Scriptlet.Store

variable {store after : Store} {id : ScopeId} {path : List ScopeId}

/-- What each scope lies in, in the order in which the scopes were made. -/
def outers (store : Store) : List (Option ScopeId) :=
  store.scopes.toList.map Scope.outer

@[simp] theorem length_outers (store : Store) : store.outers.length = store.scopes.size := by
  simp [outers]

theorem getElem?_outers (store : Store) (id : ScopeId) :
    store.outers[id]? = store.scopes[id]?.map Scope.outer := by
  simp [outers]

/-- A binding changes nothing of what scopes lie in. -/
@[simp] theorem outers_bind (store : Store) (id : ScopeId) (name : String) (value : Value) :
    (store.bind id name value).outers = store.outers := by
  apply List.ext_getElem?
  intro other
  rw [getElem?_outers, getElem?_outers, bind, Array.getElem?_modify]
  by_cases same : id = other
  · rw [if_pos same, Option.map_map]
    rfl
  · rw [if_neg same]

@[simp] theorem outers_enclose (store : Store) (outer : Option ScopeId) :
    (store.enclose outer).2.outers = store.outers ++ [outer] := by
  simp [outers, enclose]

/-- After a scope is added, what a scope lies in was known before, or the scope is the new one. -/
theorem outers_enclose_cases {outer other : Option ScopeId}
    (found : (store.enclose outer).2.outers[id]? = some other) :
    store.outers[id]? = some other ∨ id = store.scopes.size ∧ other = outer := by
  rw [outers_enclose] at found
  rcases Nat.lt_trichotomy id store.outers.length with old | new | beyond
  · rw [List.getElem?_append_left old] at found
    exact Or.inl found
  · rw [new, List.getElem?_concat_length] at found
    exact Or.inr ⟨new.trans (length_outers store), (Option.some.inj found).symm⟩
  · have bound := (List.getElem?_eq_some_iff.mp found).1
    rw [List.length_append, List.length_singleton] at bound
    exact absurd (Nat.le_of_lt_succ bound) (Nat.not_le_of_lt beyond)

/-- A scope is there where it is known what it lies in. -/
theorem exists_scope {outer : Option ScopeId} (found : store.outers[id]? = some outer) :
    ∃ scope, store.scopes[id]? = some scope ∧ scope.outer = outer := by
  rw [getElem?_outers] at found
  exact Option.map_eq_some_iff.mp found

/-- The scopes that are passed on the way outward from one, which is the first of them. -/
inductive Outward (store : Store) : ScopeId → List ScopeId → Prop
  | outermost {id : ScopeId} : store.outers[id]? = some none → Outward store id [id]
  | around {id outer : ScopeId} {path : List ScopeId} : store.outers[id]? = some (some outer) →
      Outward store outer path → Outward store id (id :: path)

/-- The search for a name: at a scope that does not bind it, it goes on at the scope around. -/
inductive Search (store : Store) (name : String) : ScopeId → Option Value → Prop
  | bound {id : ScopeId} {scope : Scope} {value : Value} : store.scopes[id]? = some scope →
      scope.find? name = some value → Search store name id (some value)
  | nowhere {id : ScopeId} {scope : Scope} : store.scopes[id]? = some scope →
      scope.find? name = none → scope.outer = none → Search store name id none
  | around {id outer : ScopeId} {scope : Scope} {result : Option Value} :
      store.scopes[id]? = some scope → scope.find? name = none → scope.outer = some outer →
      Search store name outer result → Search store name id result

/-- A search ends in one way only. -/
theorem Search.unique {name : String} {first second : Option Value}
    (one : store.Search name id first) (other : store.Search name id second) : first = second := by
  induction one with
  | bound here found =>
    cases other with
    | bound here' found' =>
      cases here.symm.trans here'
      exact found.symm.trans found'
    | nowhere here' missing | around here' missing =>
      cases here.symm.trans here'
      cases found.symm.trans missing
  | nowhere here missing outermost =>
    cases other with
    | bound here' found =>
      cases here.symm.trans here'
      cases found.symm.trans missing
    | nowhere => rfl
    | around here' _ within =>
      cases here.symm.trans here'
      cases outermost.symm.trans within
  | around here missing within _ ih =>
    cases other with
    | bound here' found =>
      cases here.symm.trans here'
      cases found.symm.trans missing
    | nowhere here' _ outermost =>
      cases here.symm.trans here'
      cases outermost.symm.trans within
    | around here' _ within' rest =>
      cases here.symm.trans here'
      cases within.symm.trans within'
      exact ih rest

namespace Outward

/-- The way outward leads over scopes of the store, and stays as it is while scopes are added. -/
theorem mono (outward : store.Outward id path) (later : store.outers <+: after.outers) :
    after.Outward id path := by
  obtain ⟨added, more⟩ := later
  have kept : ∀ {id : ScopeId} {outer : Option ScopeId}, store.outers[id]? = some outer →
      after.outers[id]? = some outer := fun found => by
    rw [← more]
    exact List.getElem?_append_left (List.getElem?_eq_some_iff.mp found).1 ▸ found
  induction outward with
  | outermost found => exact .outermost (kept found)
  | around found _ ih => exact .around (kept found) ih

/-- There is one way outward only. -/
theorem unique {other : List ScopeId} (outward : store.Outward id path)
    (outward' : store.Outward id other) : path = other := by
  induction outward generalizing other with
  | outermost found =>
    cases outward' with
    | outermost => rfl
    | around found' => cases found.symm.trans found'
  | around found _ ih =>
    cases outward' with
    | outermost found' => cases found.symm.trans found'
    | around found' rest =>
      cases found.symm.trans found'
      rw [ih rest]

/-- A bound that allows for the whole way cuts nothing off a chain. -/
theorem map_chainWithin (outward : store.Outward id path) {bound : Nat}
    (enough : path.length ≤ bound) :
    (store.chainWithin bound id).map some = path.map fun other => store.scopes[other]? := by
  induction outward generalizing bound with
  | outermost found =>
    obtain ⟨scope, here, outer⟩ := exists_scope found
    obtain ⟨bound, rfl⟩ : ∃ fewer, bound = fewer + 1 := Nat.exists_eq_add_of_le' enough
    simp [chainWithin, here, outer]
  | around found _ ih =>
    obtain ⟨scope, here, outer⟩ := exists_scope found
    obtain ⟨bound, rfl⟩ := Nat.exists_eq_add_of_le' (Nat.le_trans (Nat.le_add_left 1 _) enough)
    rw [List.length_cons, Nat.add_le_add_iff_right] at enough
    simp [chainWithin, here, outer, ih enough]

theorem length_chainWithin (outward : store.Outward id path) {bound : Nat}
    (enough : path.length ≤ bound) : (store.chainWithin bound id).length = path.length := by
  have same := congrArg List.length (outward.map_chainWithin enough)
  rwa [List.length_map, List.length_map] at same

/-- What is found on the nearest scope of a chain is found on the nearest scope of the way. -/
theorem findSome?_chainWithin (outward : store.Outward id path) {bound : Nat}
    (enough : path.length ≤ bound) {α : Type} (find? : Scope → Option α) :
    (store.chainWithin bound id).findSome? find? =
      path.findSome? fun other => store.scopes[other]?.bind find? := by
  have same := congrArg (List.findSome? fun scope? => scope?.bind find?)
    (outward.map_chainWithin enough)
  simpa only [List.findSome?_map, Function.comp_def, Option.bind_some] using same

/-- What is found along the chain is what the search finds. -/
theorem search_chainWithin (outward : store.Outward id path) {bound : Nat}
    (enough : path.length ≤ bound) (name : String) :
    store.Search name id ((store.chainWithin bound id).findSome? fun scope => scope.find? name) := by
  induction outward generalizing bound with
  | outermost found =>
    obtain ⟨scope, here, outer⟩ := exists_scope found
    obtain ⟨bound, rfl⟩ : ∃ fewer, bound = fewer + 1 := Nat.exists_eq_add_of_le' enough
    simp only [chainWithin, here, outer, List.findSome?_cons, List.findSome?_nil]
    cases bound : scope.find? name with
    | some value => exact .bound here bound
    | none => exact .nowhere here bound outer
  | around found _ ih =>
    obtain ⟨scope, here, outer⟩ := exists_scope found
    obtain ⟨bound, rfl⟩ := Nat.exists_eq_add_of_le' (Nat.le_trans (Nat.le_add_left 1 _) enough)
    rw [List.length_cons, Nat.add_le_add_iff_right] at enough
    simp only [chainWithin, here, outer, List.findSome?_cons]
    cases bound : scope.find? name with
    | some value => exact .bound here bound
    | none => exact .around here bound outer (ih enough)

/-- What a search finds is looked up, where the way outward is as short as it should be. -/
theorem lookup?_eq (outward : store.Outward id path) (short : path.length ≤ id + 1) {name : String}
    {result : Option Value} (search : store.Search name id result) : store.lookup? id name = result :=
  (outward.search_chainWithin short name).unique search

end Outward

/-! ### Scopes in older ones -/

/-- Every scope lies in none or in an older one. -/
def Ordered (store : Store) : Prop :=
  ∀ id outer : ScopeId, store.outers[id]? = some (some outer) → outer < id

namespace Ordered

variable (ordered : store.Ordered)

include ordered

/-- What scopes lie in is all that counts. -/
theorem congr (same : after.outers = store.outers) : after.Ordered :=
  fun _ _ found => ordered _ _ (same ▸ found)

/-- A scope added within one that is there, or within none, is younger than that. -/
theorem enclose {outer : Option ScopeId} (inside : ∀ older ∈ outer, older < store.scopes.size) :
    (store.enclose outer).2.Ordered := by
  intro id older found
  rcases outers_enclose_cases found with before | ⟨rfl, rfl⟩
  · exact ordered _ _ before
  · exact inside older rfl

/-- From every scope there is a way outward. -/
theorem exists_outward (inside : id < store.scopes.size) : ∃ path, store.Outward id path := by
  induction id using Nat.strongRecOn with
  | _ id ih =>
    obtain ⟨outer, found⟩ : ∃ outer, store.outers[id]? = some outer :=
      ⟨_, List.getElem?_eq_getElem (length_outers store ▸ inside)⟩
    cases outer with
    | none => exact ⟨[id], .outermost found⟩
    | some older =>
      have less := ordered _ _ found
      obtain ⟨path, outward⟩ := ih older less (Nat.lt_trans less inside)
      exact ⟨id :: path, .around found outward⟩

variable (outward : store.Outward id path)

include outward

/-- No scope on the way outward is younger than the one it starts from. -/
theorem le_of_mem : ∀ other ∈ path, other ≤ id := by
  induction outward with
  | outermost => exact List.forall_mem_singleton.mpr (Nat.le_refl _)
  | around found _ ih =>
    refine List.forall_mem_cons.mpr ⟨Nat.le_refl _, fun other member => ?_⟩
    exact Nat.le_trans (ih other member) (Nat.le_of_lt (ordered _ _ found))

theorem decreasing : path.Pairwise (· > ·) := by
  induction outward with
  | outermost => exact List.pairwise_singleton _ _
  | around found rest ih =>
    refine List.pairwise_cons.mpr ⟨fun other member => ?_, ih⟩
    exact Nat.lt_of_le_of_lt (ordered.le_of_mem rest other member) (ordered _ _ found)

/-- The way outward is no longer than there are scopes as old as the one it starts from. -/
theorem length_le : path.length ≤ id + 1 := by
  induction outward with
  | outermost => exact Nat.le_add_left 1 _
  | around found rest ih => exact Nat.succ_le_succ (Nat.le_trans ih (ordered _ _ found))

/-- **A name is looked up on each scope of the way outward in turn.** -/
theorem lookup?_eq (name : String) : store.lookup? id name =
    path.findSome? fun other => store.scopes[other]?.bind fun scope => scope.find? name :=
  outward.findSome?_chainWithin (ordered.length_le outward) _

/-- The depth counts the scopes around. -/
theorem length_path : path.length = store.depth id + 1 := by
  rw [depth, chain, outward.length_chainWithin (ordered.length_le outward)]
  cases outward <;> rfl

end Ordered

/-! ### Well-founded stores -/

/-- The root lies in no scope, and every other scope in an older one. -/
structure WellFounded (store : Store) : Prop where
  root : store.outers[root]? = some none
  older : ∀ {id : ScopeId} {outer : Option ScopeId}, store.outers[id]? = some outer →
    id ≠ Store.root → ∃ older < id, outer = some older

/-- What a scope of a well-founded store leads to. -/
structure Rooted (store : Store) (id : ScopeId) : Prop where
  /-- The way outward ends at the root, and every scope on it is older than the one before. -/
  path : ∃ path, store.Outward id path ∧ path.getLast? = some root ∧ path.Pairwise (· > ·)
  /-- The search for any name ends, and finds what is looked up. -/
  search : ∀ name result, store.Search name id result ↔ result = store.lookup? id name
  /-- The scope is there, with names of its own. -/
  names : ∃ scope, store.scopes[id]? = some scope ∧ store.names id = scope.names
  /-- The depth counts the scopes around. -/
  depth : ∀ {path}, store.Outward id path → path.length = store.depth id + 1

namespace WellFounded

/-- The one scope of the initial store is the root. -/
theorem initial : Store.initial.WellFounded where
  root := rfl
  older found other := by
    have bound := (List.getElem?_eq_some_iff.mp found).1
    exact absurd (Nat.lt_one_iff.mp bound) other

/-- What scopes lie in is all that counts. -/
theorem congr (founded : store.WellFounded) (same : after.outers = store.outers) :
    after.WellFounded where
  root := same ▸ founded.root
  older found := founded.older (same ▸ found)

/-- A scope that lies in another one lies in an older one. -/
theorem ordered (founded : store.WellFounded) : store.Ordered := by
  intro id outer found
  have inner : id ≠ Store.root := fun first => by
    rw [first] at found
    cases founded.root.symm.trans found
  obtain ⟨older, less, same⟩ := founded.older found inner
  cases same
  exact less

/-- A scope added within another one is younger than that. -/
theorem enclose (founded : store.WellFounded) {outer : ScopeId} (inside : outer < store.scopes.size) :
    (store.enclose (some outer)).2.WellFounded := by
  constructor
  · rw [outers_enclose]
    exact List.getElem?_append_left (List.getElem?_eq_some_iff.mp founded.root).1 ▸ founded.root
  · intro id outer' found other
    rcases outers_enclose_cases found with before | ⟨rfl, rfl⟩
    · exact founded.older before other
    · exact ⟨outer, inside, rfl⟩

/-- The root is there. -/
theorem root_lt (founded : store.WellFounded) : Store.root < store.scopes.size :=
  length_outers store ▸ (List.getElem?_eq_some_iff.mp founded.root).1

/-- The way outward ends at the root. -/
theorem getLast?_path (founded : store.WellFounded) (outward : store.Outward id path) :
    path.getLast? = some Store.root := by
  induction outward with
  | @outermost id found =>
    by_cases first : id = Store.root
    · rw [first]
      rfl
    · obtain ⟨older, -, outer⟩ := founded.older found first
      cases outer
  | around _ rest ih => rw [List.getLast?_cons, ih, Option.getD_some]

/-- **From every scope the way outward ends at the root**, over ever older scopes; so do searches,
and the count of the scopes around. -/
theorem rooted (founded : store.WellFounded) (inside : id < store.scopes.size) :
    store.Rooted id := by
  obtain ⟨path, outward⟩ := founded.ordered.exists_outward inside
  have enough := founded.ordered.length_le outward
  refine ⟨⟨path, outward, founded.getLast?_path outward, founded.ordered.decreasing outward⟩, ?_,
    ?_, founded.ordered.length_path⟩
  · have search := fun name => outward.search_chainWithin enough name
    exact fun name result => ⟨fun other => other.unique (search name), fun same => same ▸ search name⟩
  · have here := Array.getElem?_eq_getElem inside
    exact ⟨_, here, by rw [names, here, Option.map_some, Option.getD_some]⟩

end WellFounded

end Scriptlet.Store
