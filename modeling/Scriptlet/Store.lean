/-
**Scopes, identities and output.**

* `Scope`: names bound to values, and the scope around it, if any.
* `Store`: all scopes, the identities given out so far, and what has been printed.
* `Store.chain`: a scope and the scopes around it, from the inside outward. A scope lies in an older
  one, so the chain ends.
* `Store.lookup?`: the value of a name on the nearest scope of the chain that binds it.
* `Store.bind`, `Store.enclose`: a name bound on a scope itself; a new scope within another.

`Scope.find?_bind` says what a binding does to the names of a scope.
-/
import Scriptlet.Value

namespace Scriptlet

/-- Names bound to values within another scope, in the order of their first binding. -/
structure Scope where
  outer : Option ScopeId
  bindings : List (String × Value)
  deriving Repr, Inhabited

namespace Scope

/-- A name bound among others, in its place if it was bound before. -/
def bindAmong (name : String) (value : Value) : List (String × Value) → List (String × Value)
  | [] => [(name, value)]
  | (other, old) :: rest =>
    if other = name then (name, value) :: rest else (other, old) :: bindAmong name value rest

/-- The value of a name bound on the scope itself. -/
def find? (scope : Scope) (name : String) : Option Value :=
  scope.bindings.lookup name

/-- A scope with a name bound. -/
def bind (scope : Scope) (name : String) (value : Value) : Scope :=
  ⟨scope.outer, bindAmong name value scope.bindings⟩

/-- The names bound on a scope, in order. -/
def names (scope : Scope) : List String :=
  (scope.bindings.map Prod.fst).mergeSort fun first second => first ≤ second

/-- A binding changes the value of its name and of no other. -/
theorem find?_bind (scope : Scope) (name other : String) (value : Value) :
    (scope.bind name value).find? other =
      if other = name then some value else scope.find? other := by
  obtain ⟨outer, bindings⟩ := scope
  simp only [bind, find?]
  have unequal : ∀ first : String, other ≠ first → (other == first) = false := fun first distinct =>
    beq_eq_false_iff_ne.mpr distinct
  induction bindings with
  | nil =>
    by_cases equal : other = name
    · simp [bindAmong, equal]
    · simp [bindAmong, List.lookup_cons, equal, unequal name equal]
  | cons pair rest ih =>
    obtain ⟨first, old⟩ := pair
    unfold bindAmong
    by_cases here : first = name
    · subst here
      by_cases equal : other = first
      · simp [equal]
      · simp [List.lookup_cons, equal, unequal first equal]
    · by_cases equal : other = first
      · subst equal
        simp [here]
      · simpa [here, List.lookup_cons, unequal first equal] using ih

end Scope

/-- All scopes, by name; the number of identities given out; the lines printed. -/
structure Store where
  scopes : Array Scope
  identities : Nat
  printed : Array String
  deriving Repr, Inhabited

namespace Store

/-- A store with one scope, which binds nothing and lies in no other. -/
def initial : Store :=
  ⟨#[⟨none, []⟩], 0, #[]⟩

/-- The scope of every program that is not given another one. -/
def root : ScopeId := 0

/-- At most so many scopes from one outward. -/
def chainWithin (store : Store) : Nat → ScopeId → List Scope
  | 0, _ => []
  | bound + 1, id =>
    match store.scopes[id]? with
    | some scope =>
      scope :: (match scope.outer with
        | some outer => store.chainWithin bound outer
        | none => [])
    | none => []

/-- A scope and the scopes around it, from the inside outward. -/
def chain (store : Store) (id : ScopeId) : List Scope :=
  store.chainWithin (id + 1) id

/-- The value of a name on the nearest scope that binds it. The stack is taken to have room for the
search: a scope has around it only as many others as function literals nest in the source. -/
def lookup? (store : Store) (id : ScopeId) (name : String) : Option Value :=
  (store.chain id).findSome? fun scope => scope.find? name

/-- The bindings of a scope itself. -/
def bindings (store : Store) (id : ScopeId) : List (String × Value) :=
  (store.scopes[id]?.map Scope.bindings).getD []

/-- The names bound on a scope itself, in order. -/
def names (store : Store) (id : ScopeId) : List String :=
  (store.scopes[id]?.map Scope.names).getD []

/-- How many scopes lie around a scope. -/
def depth (store : Store) (id : ScopeId) : Nat :=
  (store.chain id).length - 1

/-- How a scope is shown. -/
def shownScope (store : Store) (id : ScopeId) : String :=
  "<Environment names=" ++ toString (store.bindings id).length ++ " depth=" ++
    toString (store.depth id) ++ ">"

/-- A name bound on a scope itself. -/
def bind (store : Store) (id : ScopeId) (name : String) (value : Value) : Store :=
  { store with scopes := store.scopes.modify id fun scope => scope.bind name value }

/-- A new scope within another, or within none. -/
def enclose (store : Store) (outer : Option ScopeId) : ScopeId × Store :=
  (store.scopes.size, { store with scopes := store.scopes.push ⟨outer, []⟩ })

/-- An identity not given out before. -/
def identify (store : Store) : Nat × Store :=
  (store.identities, { store with identities := store.identities + 1 })

/-- A line printed. -/
def print (store : Store) (line : String) : Store :=
  { store with printed := store.printed.push line }

/-- What has been printed. -/
def output (store : Store) : String :=
  String.join (store.printed.toList.map (· ++ "\n"))

/-- A store with nothing printed yet. -/
def cleared (store : Store) : Store :=
  { store with printed := #[] }

end Store

end Scriptlet
