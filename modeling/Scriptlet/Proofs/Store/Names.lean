/-
**The names of a scope.**

* `Scope.Distinct`: no name is bound twice among others.
* `Scope.bindAllAmong`: names bound in turn among others.

Main statements: `Scope.mem_names`, the names of a scope are those that are bound on it;
`Scope.pairwise_names`, they stand in order, each once, if no name is bound twice, and a binding keeps
it so (`Scope.Distinct.bindAmong`); `Scope.lookup_bindAllAmong`, of names bound in turn the last
counts; `Store.lookup?_root`, from the root only its own names are seen.
-/
import Scriptlet.Store

namespace Scriptlet

namespace Scope

variable {scope : Scope} {bindings pairs : List (String × Value)}

/-! ### One binding -/

/-- No name is bound twice. -/
def Distinct (bindings : List (String × Value)) : Prop :=
  (bindings.map Prod.fst).Nodup

theorem lookup_bindAmong (name other : String) (value : Value) :
    (bindAmong name value bindings).lookup other =
      if other = name then some value else bindings.lookup other :=
  find?_bind ⟨none, bindings⟩ name other value

/-- A binding adds its name behind the others, unless it is among them. -/
theorem map_fst_bindAmong (name : String) (value : Value) :
    (bindAmong name value bindings).map Prod.fst =
      if name ∈ bindings.map Prod.fst then bindings.map Prod.fst
      else bindings.map Prod.fst ++ [name] := by
  induction bindings with
  | nil => rfl
  | cons pair rest ih =>
    obtain ⟨first, old⟩ := pair
    unfold bindAmong
    by_cases here : first = name
    · simp [here]
    · rw [if_neg here, List.map_cons, ih, List.map_cons]
      by_cases later : name ∈ rest.map Prod.fst
      · rw [if_pos later, if_pos (List.mem_cons_of_mem _ later)]
      · have absent : name ∉ first :: rest.map Prod.fst := by
          rw [List.mem_cons, not_or]
          exact ⟨Ne.symm here, later⟩
        rw [if_neg later, if_neg absent]
        rfl

/-- A binding binds no name twice. -/
theorem Distinct.bindAmong (distinct : Distinct bindings) (name : String) (value : Value) :
    Distinct (bindAmong name value bindings) := by
  unfold Distinct
  rw [map_fst_bindAmong]
  split
  · exact distinct
  next absent =>
    rw [List.nodup_append]
    refine ⟨distinct, List.pairwise_singleton _ _, fun other member last single same => absent ?_⟩
    rw [← List.mem_singleton.mp single, ← same]
    exact member

/-! ### Names bound in turn -/

/-- Names bound in turn among others. -/
def bindAllAmong (pairs bindings : List (String × Value)) : List (String × Value) :=
  pairs.foldl (fun bound pair => bindAmong pair.1 pair.2 bound) bindings

/-- Of names bound in turn the last counts. -/
theorem lookup_bindAllAmong (name : String) : (bindAllAmong pairs bindings).lookup name =
    (pairs.reverse.lookup name).or (bindings.lookup name) := by
  induction pairs generalizing bindings with
  | nil => rfl
  | cons pair rest ih =>
    obtain ⟨first, value⟩ := pair
    show (bindAllAmong rest (bindAmong first value bindings)).lookup name = _
    rw [ih, lookup_bindAmong, List.reverse_cons, List.lookup_append, Option.or_assoc]
    congr 1
    by_cases same : name = first
    · simp [same]
    · simp [same, List.lookup_cons, beq_eq_false_iff_ne.mpr same]

theorem Distinct.bindAllAmong (distinct : Distinct bindings) :
    Distinct (bindAllAmong pairs bindings) := by
  induction pairs generalizing bindings with
  | nil => exact distinct
  | cons pair rest ih => exact ih (distinct.bindAmong pair.1 pair.2)

/-! ### The names of a scope -/

/-- The names of a scope are those that are bound on it. -/
theorem mem_names {name : String} : name ∈ scope.names ↔ (scope.find? name).isSome = true := by
  rw [names, List.mem_mergeSort, find?, List.lookup_isSome_iff, List.mem_map]
  refine exists_congr fun pair => and_congr_right fun _ => ?_
  rw [beq_iff_eq, eq_comm]

/-- The names of a scope stand in order, each once. -/
theorem pairwise_names (distinct : Distinct scope.bindings) : scope.names.Pairwise (· < ·) := by
  have ordered : scope.names.Pairwise fun first second => decide (first ≤ second) = true := by
    refine List.pairwise_mergeSort (fun first second third one two => ?_) (fun first second => ?_) _
    · exact decide_eq_true (String.le_trans (of_decide_eq_true one) (of_decide_eq_true two))
    · rw [Bool.or_eq_true, decide_eq_true_eq, decide_eq_true_eq]
      exact String.le_total first second
  have once : scope.names.Nodup := (List.mergeSort_perm _ _).nodup_iff.mpr distinct
  refine List.Pairwise.imp₂ (fun first second within differ => ?_) ordered once
  refine String.not_le.mp fun back => ?_
  exact differ (String.le_antisymm (of_decide_eq_true within) back)

/-- There are as many names as bindings. -/
theorem length_names (scope : Scope) : scope.names.length = scope.bindings.length := by
  rw [names, List.length_mergeSort, List.length_map]

end Scope

namespace Store

/-- What is seen from the root is what is bound there. -/
theorem lookup?_root (store : Store) (name : String) :
    store.lookup? root name = (store.scopes[root]?).bind fun scope => scope.find? name := by
  cases found : store.scopes[root]? with
  | none => simp [lookup?, chain, chainWithin, found]
  | some scope =>
    unfold root at found ⊢
    -- the root is the oldest scope, so the chain has no room for another one
    have alone : store.chain 0 = [scope] := by
      cases outer : scope.outer <;> simp [chain, chainWithin, found, outer]
    cases bound : scope.find? name <;> simp [lookup?, alone, bound]

/-- What alone is bound on the root is seen from there, whatever has been printed. -/
theorem lookup?_of_bindings {store : Store} {name : String} {value : Value}
    (alone : store.bindings root = [(name, value)]) :
    store.cleared.lookup? root name = some value := by
  obtain ⟨scope, here, same⟩ : ∃ scope, store.scopes[root]? = some scope ∧
      scope.bindings = [(name, value)] := by
    cases here : store.scopes[root]? with
    | none => simp [bindings, here] at alone
    | some scope => exact ⟨scope, rfl, by simpa [bindings, here] using alone⟩
  rw [lookup?_root, cleared, here, Option.bind_some, Scope.find?, same]
  exact List.lookup_cons_self

/-- What is seen from the root has a name that is bound there. -/
theorem mem_names_root {store : Store} {name : String} {value : Value}
    (found : store.lookup? root name = some value) : name ∈ store.names root := by
  rw [lookup?_root] at found
  obtain ⟨scope, here, bound⟩ := Option.bind_eq_some_iff.mp found
  have named : name ∈ scope.names := Scope.mem_names.mpr (by rw [bound]; rfl)
  simpa [names, here] using named

end Store

end Scriptlet
