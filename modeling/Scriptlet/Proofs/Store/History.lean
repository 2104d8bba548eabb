/-
**What a history of accesses leaves on scopes.**

Names are set on scopes, and scopes are enclosed in others, in any order: a name may be set on a scope
after others were enclosed in it.

* `Access`: what is done with a scope. `History.store` is the store after a history of accesses to
  scopes that are there (`History.Possible`).
* `History.latest?`: the value that a name was last set to on a scope itself, as the history tells it.
* `History.Outward`: the way outward from a scope, as the history tells it.
* `History.Lexical`: what is found from a scope, and what a further setting of a name changes there.

Main statements: `History.Told.next`, what one access leaves; `scopes_lexical`, by induction on the
history, what is found after all of them.
-/
import Mathlib.Data.List.Induction
import Scriptlet.Proofs.Store.Names
import Scriptlet.Proofs.Store.Outward

namespace Scriptlet

/-- What is done with a scope. -/
inductive Access where
  /-- A name is set on it. -/
  | set (scope : ScopeId) (name : String) (value : Value)
  /-- A new scope is enclosed in it. -/
  | enclose (outer : ScopeId)
  /-- A name is looked up from it, which changes nothing. -/
  | get (scope : ScopeId) (name : String)

namespace Access

/-- The scope that it is done with. -/
def scope : Access → ScopeId
  | set scope _ _ | enclose scope | get scope _ => scope

/-- The store after it. -/
def perform (store : Store) : Access → Store
  | set scope name value => store.bind scope name value
  | enclose outer => (store.enclose (some outer)).2
  | get _ _ => store

/-- The scope in which a new one is enclosed. -/
def outer? : Access → Option ScopeId
  | enclose outer => some outer
  | set _ _ _ | get _ _ => none

/-- The value that a name is set to on a scope. -/
def value? (scope : ScopeId) (name : String) : Access → Option Value
  | set other named value => if other = scope ∧ named = name then some value else none
  | enclose _ | get _ _ => none

end Access

namespace History

/-! ### What a history tells -/

/-- The store after a history. -/
def store (history : List Access) : Store :=
  history.foldl Access.perform .initial

/-- The scopes in which new ones were enclosed, in turn. -/
def outers (history : List Access) : List ScopeId :=
  history.filterMap Access.outer?

/-- How many scopes there are: the root and the enclosed ones. -/
def size (history : List Access) : Nat :=
  (outers history).length + 1

/-- The value that a name was last set to on a scope. -/
def latest? (history : List Access) (scope : ScopeId) (name : String) : Option Value :=
  history.reverse.findSome? (Access.value? scope name)

/-- Every access is to a scope that was there. -/
inductive Possible : List Access → Prop
  | start : Possible []
  | next {history : List Access} {access : Access} : Possible history →
      access.scope < size history → Possible (history ++ [access])

/-- The scopes from one outward, which is the first of them, to the root. -/
inductive Outward (history : List Access) : ScopeId → List ScopeId → Prop
  | root : Outward history Store.root [Store.root]
  | enclosed {place outer : Nat} {path : List ScopeId} : (outers history)[place]? = some outer →
      Outward history outer path → Outward history (place + 1) ((place + 1) :: path)

/-- What is found from a scope after a history, and what one more setting of a name changes there. -/
structure Lexical (history : List Access) (id : ScopeId) (path : List ScopeId) : Prop where
  /-- A name has the value that it was last set to on the nearest scope on which it was ever set. -/
  found (name : String) : (store history).lookup? id name =
    path.findSome? fun scope => latest? history scope name
  /-- What is set on a scope off the way outward is not seen. -/
  away {scope : ScopeId} (there : scope < size history) (off : scope ∉ path) (name : String)
    (value : Value) (other : String) :
    (store (history ++ [.set scope name value])).lookup? id other = (store history).lookup? id other
  /-- Nor is what is set farther outward than a scope on which the name is set. -/
  shadowed {nearer farther : List ScopeId} {scope : ScopeId} (on : path = nearer ++ scope :: farther)
    {name : String} (nearby : ∃ inner ∈ nearer, (latest? history inner name).isSome = true)
    (value : Value) (other : String) :
    (store (history ++ [.set scope name value])).lookup? id other = (store history).lookup? id other
  /-- Anything else that is set on the way outward is seen. -/
  seen {nearer farther : List ScopeId} {scope : ScopeId} (on : path = nearer ++ scope :: farther)
    {name : String} (nowhere : ∀ inner ∈ nearer, latest? history inner name = none) (value : Value) :
    (store (history ++ [.set scope name value])).lookup? id name = some value
  /-- No other name is changed. -/
  apart {scope : ScopeId} (there : scope < size history) {name other : String}
    (distinct : other ≠ name) (value : Value) :
    (store (history ++ [.set scope name value])).lookup? id other = (store history).lookup? id other
  /-- The names of a scope are those that were ever set on it, in order, each once. -/
  names (name : String) : name ∈ (store history).names id ↔ ∃ value, .set id name value ∈ history
  increasing : ((store history).names id).Pairwise (· < ·)
  /-- A scope is shown with the number of its names and of the enclosures around it. -/
  shown : (store history).shownScope id = "<Environment names=" ++
    toString ((store history).names id).length ++ " depth=" ++ toString (path.length - 1) ++ ">"

variable {history : List Access} {scope id : ScopeId} {name : String} {path : List ScopeId}

/-- The latest access counts first. -/
theorem latest?_append (history : List Access) (access : Access) :
    latest? (history ++ [access]) scope name =
      (access.value? scope name).or (latest? history scope name) := by
  rw [latest?, List.reverse_append, List.reverse_singleton, List.singleton_append,
    List.findSome?_cons, ← latest?]
  cases access.value? scope name <;> rfl

theorem latest?_set (history : List Access) (other : ScopeId) (named : String) (value : Value) :
    latest? (history ++ [.set other named value]) scope name =
      if other = scope ∧ named = name then some value else latest? history scope name := by
  rw [latest?_append, Access.value?]
  split <;> rfl

/-- A name has a latest value where it was ever set. -/
theorem isSome_latest? : (latest? history scope name).isSome = true ↔
    ∃ value, .set scope name value ∈ history := by
  rw [latest?, List.findSome?_isSome_iff]
  constructor
  · rintro ⟨access, member, given⟩
    cases access with
    | set other named value =>
      rw [Access.value?] at given
      split at given
      next same =>
        obtain ⟨rfl, rfl⟩ := same
        exact ⟨value, List.mem_reverse.mp member⟩
      · cases given
    | enclose | get => cases given
  · rintro ⟨value, member⟩
    exact ⟨_, List.mem_reverse.mpr member, by simp [Access.value?]⟩

/-- A history is possible if each access is to a scope that what comes before it leaves. -/
theorem Possible.of_forall {history : List Access}
    (inside : ∀ place (here : place < history.length),
      (history.get ⟨place, here⟩).scope < size (history.take place)) : Possible history := by
  induction history using List.reverseRecOn with
  | nil => exact .start
  | append_singleton before access ih =>
    have longer : ∀ {place}, place < before.length → place < (before ++ [access]).length :=
      fun here => by
        rw [List.length_append]
        exact Nat.lt_add_right _ here
    refine .next (ih fun place here => ?_) ?_
    · have earlier := inside place (longer here)
      rwa [List.get_eq_getElem, List.getElem_append_left here,
        List.take_append_of_le_length (Nat.le_of_lt here)] at earlier
    · simpa using inside before.length (by simp)

theorem outers_append (history : List Access) (access : Access) :
    outers (history ++ [access]) = outers history ++ access.outer?.toList := by
  rw [outers, List.filterMap_append, ← outers]
  cases access <;> rfl

theorem store_append (history : List Access) (access : Access) :
    store (history ++ [access]) = access.perform (store history) := by
  rw [store, List.foldl_append, ← store]
  rfl

/-! ### Stores as histories tell them -/

/-- A store is as a history tells: what scopes lie in, and what is bound on each of them. -/
structure Told (history : List Access) (store : Store) : Prop where
  founded : store.WellFounded
  outers : store.outers = none :: (outers history).map some
  latest (id : ScopeId) (name : String) :
    (store.scopes[id]?.bind fun scope => scope.find? name) = latest? history id name
  distinct {id : ScopeId} {scope : Scope} : store.scopes[id]? = some scope →
    Scope.Distinct scope.bindings

namespace Told

variable {store : Store}

theorem start : Told [] .initial where
  founded := .initial
  outers := rfl
  latest id name := by
    cases found : Store.initial.scopes[id]? with
    | none => rfl
    | some scope =>
      rw [Store.eq_of_initial found]
      rfl
  distinct found := by
    rw [Store.eq_of_initial found]
    exact List.nodup_nil

variable (told : Told history store)

include told

/-- There are as many scopes as the history tells. -/
theorem size_eq : store.scopes.size = size history := by
  rw [← Store.length_outers, told.outers, List.length_cons, List.length_map, size]

theorem bind (inside : id < size history) (name : String) (value : Value) :
    Told (history ++ [.set id name value]) (store.bind id name value) where
  founded := told.founded.congr (Store.outers_bind ..)
  outers := by
    rw [Store.outers_bind, told.outers, outers_append]
    simp [Access.outer?]
  latest other named := by
    rw [latest?_set, ← told.latest, Store.bind, Array.getElem?_modify]
    have there := Array.getElem?_eq_getElem (told.size_eq ▸ inside)
    by_cases same : id = other
    · subst same
      rw [if_pos rfl, there, Option.map_some, Option.bind_some, Option.bind_some, Scope.find?_bind]
      simp only [true_and, eq_comm]
    · rw [if_neg same, if_neg fun both => same both.1]
  distinct := by
    intro other scope found
    rw [Store.bind, Array.getElem?_modify] at found
    split at found
    · obtain ⟨old, there, rfl⟩ := Option.map_eq_some_iff.mp found
      exact (told.distinct there).bindAmong name value
    · exact told.distinct found

theorem enclose {outer : ScopeId} (inside : outer < size history) :
    Told (history ++ [.enclose outer]) (store.enclose (some outer)).2 where
  founded := told.founded.enclose (told.size_eq ▸ inside)
  outers := by
    rw [Store.outers_enclose, told.outers, outers_append]
    simp [Access.outer?]
  latest id name := by
    rw [latest?_append, Access.value?, Option.none_or, ← told.latest, Store.enclose,
      Array.getElem?_push]
    split
    next last =>
      -- nothing was set on the new scope before
      rw [last, Array.getElem?_eq_none (Nat.le_refl _)]
      rfl
    · rfl
  distinct := by
    intro id scope found
    rw [Store.enclose, Array.getElem?_push] at found
    split at found
    · obtain rfl := Option.some.inj found
      exact List.nodup_nil
    · exact told.distinct found

/-- **What one access leaves** is what the history with that access tells. -/
theorem next {access : Access} (inside : access.scope < size history) :
    Told (history ++ [access]) (access.perform store) := by
  cases access with
  | set => exact told.bind inside _ _
  | enclose => exact told.enclose inside
  | get =>
    refine ⟨told.founded, ?_, fun id name => ?_, told.distinct⟩
    · rw [outers_append, Access.outer?, Option.toList_none, List.append_nil]
      exact told.outers
    · rw [latest?_append, Access.value?, Option.none_or]
      exact told.latest id name

end Told

/-- What a history leaves is what it tells. -/
theorem Possible.told (possible : Possible history) : Told history (store history) := by
  induction possible with
  | start => exact .start
  | next _ inside ih =>
    rw [store_append]
    exact ih.next inside

/-! ### The way outward -/

namespace Told

variable {store : Store} (told : Told history store)

include told

/-- The way outward is as the history tells. -/
theorem outward_iff : store.Outward id path ↔ Outward history id path := by
  constructor
  · intro outward
    induction outward with
    | @outermost id found =>
      rw [told.outers] at found
      cases id with
      | zero => exact .root
      | succ place => simp at found
    | @around id outer path found _ ih =>
      rw [told.outers] at found
      cases id with
      | zero => cases found
      | succ place =>
        rw [List.getElem?_cons_succ, List.getElem?_map] at found
        obtain ⟨other, there, same⟩ := Option.map_eq_some_iff.mp found
        exact .enclosed (Option.some.inj same ▸ there) ih
  · intro outward
    induction outward with
    | root => exact .outermost told.founded.root
    | enclosed found _ ih =>
      refine .around ?_ ih
      rw [told.outers, List.getElem?_cons_succ, List.getElem?_map, found]
      rfl

variable (outward : Outward history id path)

include outward

/-- A name is looked up on each scope of the way outward in turn. -/
theorem lookup?_eq (name : String) : store.lookup? id name =
    path.findSome? fun scope => latest? history scope name := by
  rw [told.founded.ordered.lookup?_eq (told.outward_iff.mpr outward)]
  exact congrArg path.findSome? (funext fun other => told.latest other name)

end Told

/-! ### One more setting -/

section Setting

variable {nearer farther : List ScopeId} {value : Value}

/-- Where a name was not set anew, its latest values are found as before. -/
theorem findSome?_set_of_notMem (off : scope ∉ path) (other : String) :
    (path.findSome? fun inner => latest? (history ++ [.set scope name value]) inner other) =
      path.findSome? fun inner => latest? history inner other := by
  induction path with
  | nil => rfl
  | cons first rest ih =>
    obtain ⟨distinct, later⟩ := not_or.mp (mt List.mem_cons.mpr off)
    rw [List.findSome?_cons, List.findSome?_cons, ih later, latest?_set,
      if_neg fun same => distinct same.1]

/-- So are those of other names. -/
theorem findSome?_set_of_ne {other : String} (distinct : other ≠ name) (path : List ScopeId) :
    (path.findSome? fun inner => latest? (history ++ [.set scope name value]) inner other) =
      path.findSome? fun inner => latest? history inner other := by
  refine congrArg path.findSome? (funext fun inner => ?_)
  rw [latest?_set, if_neg fun same => distinct same.2.symm]

/-- A setting behind a scope on which the name is set changes nothing. -/
theorem findSome?_set_shadowed (once : (nearer ++ scope :: farther).Nodup)
    (nearby : ∃ inner ∈ nearer, (latest? history inner name).isSome = true) (other : String) :
    ((nearer ++ scope :: farther).findSome? fun inner =>
        latest? (history ++ [.set scope name value]) inner other) =
      (nearer ++ scope :: farther).findSome? fun inner => latest? history inner other := by
  by_cases distinct : other = name
  · subst distinct
    have off : scope ∉ nearer := fun member =>
      (List.nodup_append.mp once).2.2 scope member scope List.mem_cons_self rfl
    have found : (nearer.findSome? fun inner => latest? history inner other).isSome = true :=
      List.findSome?_isSome_iff.mpr nearby
    rw [List.findSome?_append, List.findSome?_append, findSome?_set_of_notMem off]
    obtain ⟨old, found⟩ := Option.isSome_iff_exists.mp found
    rw [found, Option.some_or, Option.some_or]
  · exact findSome?_set_of_ne distinct _

/-- A setting on the first scope with the name is found. -/
theorem findSome?_set_seen (once : (nearer ++ scope :: farther).Nodup)
    (nowhere : ∀ inner ∈ nearer, latest? history inner name = none) :
    ((nearer ++ scope :: farther).findSome? fun inner =>
        latest? (history ++ [.set scope name value]) inner name) = some value := by
  have off : scope ∉ nearer := fun member =>
    (List.nodup_append.mp once).2.2 scope member scope List.mem_cons_self rfl
  rw [List.findSome?_append, findSome?_set_of_notMem off, List.findSome?_eq_none_iff.mpr nowhere,
    Option.none_or, List.findSome?_cons, latest?_set, if_pos ⟨rfl, rfl⟩]

end Setting

/-! ### Names -/

namespace Told

variable {store : Store} (told : Told history store) (there : id < size history)

include told there

theorem exists_scope : ∃ scope, store.scopes[id]? = some scope ∧ store.names id = scope.names ∧
    (store.bindings id).length = (store.names id).length := by
  have here := Array.getElem?_eq_getElem (told.size_eq ▸ there)
  refine ⟨_, here, ?_, ?_⟩
  · rw [Store.names, here, Option.map_some, Option.getD_some]
  · rw [Store.names, Store.bindings, here, Option.map_some, Option.map_some, Option.getD_some,
      Option.getD_some, Scope.length_names]

/-- The names of a scope are those that were ever set on it. -/
theorem mem_names (name : String) :
    name ∈ store.names id ↔ ∃ value, .set id name value ∈ history := by
  obtain ⟨scope, here, names, -⟩ := told.exists_scope there
  rw [names, Scope.mem_names, ← isSome_latest?, ← told.latest, here, Option.bind_some]

theorem pairwise_names : (store.names id).Pairwise (· < ·) := by
  obtain ⟨scope, here, names, -⟩ := told.exists_scope there
  rw [names]
  exact Scope.pairwise_names (told.distinct here)

/-- A scope is shown with the number of its names and of the enclosures around it. -/
theorem shownScope_eq (outward : Outward history id path) : store.shownScope id =
    "<Environment names=" ++ toString (store.names id).length ++ " depth=" ++
      toString (path.length - 1) ++ ">" := by
  obtain ⟨_, -, -, length⟩ := told.exists_scope there
  have depth : path.length - 1 = store.depth id := by
    rw [told.founded.ordered.length_path (told.outward_iff.mpr outward), Nat.add_sub_cancel]
  unfold Store.shownScope
  rw [length, depth]

end Told

/-! ### Main statement -/

/-- Only enclosures count for the way outward. -/
theorem Outward.congr {other : List Access} (outward : Outward history id path)
    (same : outers other = outers history) : Outward other id path := by
  induction outward with
  | root => exact .root
  | enclosed found _ ih => exact .enclosed (same ▸ found) ih

/-- **What is found from a scope**, and what one more setting changes there. -/
theorem Possible.lexical (possible : Possible history) (there : id < size history)
    (outward : Outward history id path) : Lexical history id path := by
  have told := possible.told
  have way := told.outward_iff.mpr outward
  have once : path.Nodup := (told.founded.ordered.decreasing way).imp Nat.ne_of_gt
  have inside : ∀ scope ∈ path, scope < size history := fun scope member =>
    Nat.lt_of_le_of_lt (told.founded.ordered.le_of_mem way scope member) there
  have found := told.lookup?_eq outward
  -- the way outward stays as it is, and so lookups go over the same scopes
  have after : ∀ {scope}, scope < size history → ∀ name value other,
      (store (history ++ [.set scope name value])).lookup? id other = path.findSome? fun inner =>
        latest? (history ++ [.set scope name value]) inner other := by
    intro scope here name value other
    have more : Possible (history ++ [.set scope name value]) := .next possible here
    refine more.told.lookup?_eq (outward.congr ?_) other
    rw [outers_append, Access.outer?, Option.toList_none, List.append_nil]
  exact {
    found := found
    away := fun here off name value other => by
      rw [after here, found, findSome?_set_of_notMem off]
    shadowed := by
      rintro nearer farther scope rfl name nearby value other
      rw [after (inside scope (by simp)), found, findSome?_set_shadowed once nearby]
    seen := by
      rintro nearer farther scope rfl name nowhere value
      rw [after (inside scope (by simp)), findSome?_set_seen once nowhere]
    apart := fun here name other distinct value => by
      rw [after here, found, findSome?_set_of_ne distinct]
    names := told.mem_names there
    increasing := told.pairwise_names there
    shown := told.shownScope_eq there outward }

end History

open History

/-- **Scopes look names up lexically.** After every history of settings, enclosures and lookups, on
scopes that were there, there is one way outward from each scope to the root, and what is found from
the scope is `History.Lexical`: a name has the value that it was last set to on the nearest scope of
the way on which it was ever set. -/
theorem scopes_lexical {history : List Access} (possible : Possible history) {id : ScopeId}
    (there : id < size history) :
    ∃ path, Outward history id path ∧ (∀ other, Outward history id other → other = path) ∧
      Lexical history id path := by
  have told := possible.told
  obtain ⟨path, way⟩ := told.founded.ordered.exists_outward (told.size_eq.symm ▸ there)
  have outward := told.outward_iff.mp way
  exact ⟨path, outward, fun other outward' => (told.outward_iff.mpr outward').unique way,
    possible.lexical there outward⟩

/-- A name is set on the root after a scope was enclosed there, and on that scope after another was
enclosed in it: the innermost scope sees the second setting, a scope beside it the first. -/
theorem scopes_lexical_later :
    let history : List Access := [.set 0 "x" (.integer 1), .enclose 0, .enclose 1, .enclose 0,
      .set 0 "x" (.integer 2), .get 2 "x", .set 1 "x" (.integer 3)]
    Possible history ∧ 2 < size history ∧ 3 < size history ∧
      (store history).lookup? 2 "x" = some (.integer 3) ∧
      (store history).lookup? 3 "x" = some (.integer 2) ∧
      (store (history ++ [.set 0 "x" .null])).lookup? 2 "x" = some (.integer 3) ∧
      (store (history ++ [.set 0 "x" .null])).lookup? 3 "x" = some .null ∧
      (store history).shownScope 2 = "<Environment names=0 depth=2>" := by
  intro history
  have possible : Possible history := .of_forall (by decide)
  have inner : Outward history 2 [2, 1, 0] := .enclosed rfl (.enclosed rfl .root)
  have beside : Outward history 3 [3, 0] := .enclosed rfl .root
  obtain ⟨path, -, same, lexical⟩ := @scopes_lexical history possible 2 (by decide)
  obtain ⟨path', -, same', lexical'⟩ := @scopes_lexical history possible 3 (by decide)
  obtain rfl := same _ inner
  obtain rfl := same' _ beside
  refine ⟨possible, by decide, by decide, lexical.found "x", lexical'.found "x", ?_, ?_, ?_⟩
  · rw [@History.Lexical.shadowed _ _ _ lexical [2, 1] [] 0 rfl "x" ⟨1, by decide, rfl⟩]
    exact lexical.found "x"
  · exact @History.Lexical.seen _ _ _ lexical' [3] [] 0 rfl "x" (by simp; rfl) .null
  · have unnamed : (store history).names 2 = [] := by
      refine List.eq_nil_iff_forall_not_mem.mpr fun name member => ?_
      obtain ⟨value, set⟩ := (lexical.names name).mp member
      simp [history] at set
    rw [lexical.shown, unnamed]
    rfl

end Scriptlet
