/-
**The scope of a call.**

* `Store.called`: a store with the scope of a call, which lies in the scope that the function was made
  in.
* `Eval.enter`: the scope of a call is made, and the parameters are bound on it in turn.

Main statements: `Eval.runFrom_call`, the body of a function is evaluated on the scope of the call;
`Store.Ordered.lookup?_called`, what is not bound on it is looked up where the function was made; and
`parameters_bound`, which argument every name has there.
-/
import Scriptlet.Proofs.Evaluation.Applying
import Scriptlet.Proofs.Store.Names
import Scriptlet.Proofs.Store.Outward

namespace Scriptlet

namespace Store

/-- A store with the scope of a call: names are bound on it, and it lies in the scope that the function
was made in. -/
def called (store : Store) (outer : ScopeId) (bindings : List (String × Value)) : Store :=
  { store with scopes := store.scopes.push ⟨some outer, bindings⟩ }

variable {store : Store} {outer : ScopeId} {bindings : List (String × Value)}

theorem getElem?_called : (store.called outer bindings).scopes[store.scopes.size]? =
    some ⟨some outer, bindings⟩ := by
  simp [called]

/-- The call keeps the store. -/
theorem kept_called : store.Kept (store.called outer bindings) where
  scopes id inside := by
    simp only [called]
    rw [Array.getElem?_push, if_neg (Nat.ne_of_lt inside)]
  identities := Nat.le_refl _

/-- One more name bound on the scope of the call. -/
theorem bind_called (name : String) (value : Value) :
    (store.called outer bindings).bind store.scopes.size name value =
      store.called outer (Scope.bindAmong name value bindings) := by
  simp only [bind, called, Store.mk.injEq, and_true]
  apply Array.ext_getElem?
  intro id
  rw [Array.getElem?_modify, Array.getElem?_push, Array.getElem?_push]
  by_cases last : id = store.scopes.size
  · simp [last, Scope.bind]
  · rw [if_neg last, if_neg last, if_neg fun same => last same.symm]

/-- Names bound on it in turn. -/
theorem bindAll_called (pairs : List (String × Value)) :
    (Eval.bindAll store.scopes.size pairs).runFrom (store.called outer bindings) =
      (.ok (), store.called outer (Scope.bindAllAmong pairs bindings)) := by
  induction pairs generalizing bindings with
  | nil => rfl
  | cons pair rest ih =>
    rw [Eval.bindAll, Eval.runFrom_bind_of_ok (Eval.runFrom_modify _ _), bind_called, ih]
    rfl

/-- The names bound on the scope of the call. -/
theorem names_called : (store.called outer bindings).names store.scopes.size =
    Scope.names ⟨some outer, bindings⟩ := by
  rw [names, getElem?_called, Option.map_some, Option.getD_some]

theorem outers_called : (store.called outer bindings).outers = store.outers ++ [some outer] := by
  simp [outers, called]

/-! ### Lookups -/

namespace Ordered

variable {after : Store} {id : ScopeId} (ordered : store.Ordered)

include ordered

/-- Where scopes are kept, chains of them stay as they are. -/
theorem chain_kept (more : store.outers <+: after.outers) (kept : store.Kept after)
    (inside : id < store.scopes.size) : after.chain id = store.chain id := by
  obtain ⟨path, outward⟩ := ordered.exists_outward inside
  have short := ordered.length_le outward
  refine (List.map_inj_right fun _ _ => Option.some.inj).mp ?_
  rw [chain, chain, outward.map_chainWithin short, (outward.mono more).map_chainWithin short]
  exact List.map_congr_left fun other member =>
    kept.scopes other (Nat.lt_of_le_of_lt (ordered.le_of_mem outward other member) inside)

/-- Lookups from other scopes do not see the scope of the call. -/
theorem lookup?_beside_called (inside : id < store.scopes.size) (name : String) :
    (store.called outer bindings).lookup? id name = store.lookup? id name := by
  rw [lookup?, lookup?, ordered.chain_kept ⟨_, outers_called.symm⟩ kept_called inside]

variable (inside : outer < store.scopes.size)

include inside

theorem called : (store.called outer bindings).Ordered := by
  refine (ordered.enclose (fun older same => ?_ : ∀ older ∈ some outer, _)).congr
    (outers_called.trans (outers_enclose store (some outer)).symm)
  exact Option.some.inj same ▸ inside

/-- **What is not bound on the scope of the call is looked up where the function was made.** -/
theorem lookup?_called (name : String) :
    (store.called outer bindings).lookup? store.scopes.size name =
      (bindings.lookup name).or (store.lookup? outer name) := by
  obtain ⟨path, outward⟩ := ordered.exists_outward inside
  have ordered' : (store.called outer bindings).Ordered := ordered.called inside
  have within : (store.called outer bindings).Outward outer path :=
    outward.mono ⟨_, outers_called.symm⟩
  have found : (store.called outer bindings).outers[store.scopes.size]? = some (some outer) := by
    rw [outers_called, ← length_outers, List.getElem?_concat_length]
  have beside : (store.called outer bindings).lookup? outer name = store.lookup? outer name :=
    ordered.lookup?_beside_called inside name
  rw [← beside, ordered'.lookup?_eq within, ordered'.lookup?_eq (.around found within),
    List.findSome?_cons, getElem?_called, Option.bind_some, Scope.find?]
  cases bindings.lookup name <;> rfl

end Ordered

end Store

namespace Eval

/-- The body of a function is evaluated on the scope of the call. -/
theorem runFrom_call (inspect : Value → Except Fault String)
    (evaluate : Tree → ScopeId → Eval Value) (identity : Nat) (names : List String) (body : Tree)
    (outer : ScopeId) (arguments : List Value) (store : Store) :
    (call inspect evaluate (.function identity names body outer) arguments).runFrom store =
      (do return (← evaluate body store.scopes.size).unwrap).runFrom
        (store.called outer (Scope.bindAllAmong (names.zip arguments) [])) := by
  show (do bindAll store.scopes.size (names.zip arguments)
           let result ← evaluate body store.scopes.size
           return result.unwrap).runFrom (store.called outer []) = _
  rw [runFrom_bind_of_ok (Store.bindAll_called _)]

/-! ### Parameters -/

/-- The scope of a call of a function that was made in some scope: the parameters are bound on it in
turn, each to the argument at its place, as far as there are both. -/
def enter (outer : ScopeId) (parameters : List String) (arguments : List Value) : Eval ScopeId := do
  let inner ← modifyGet fun store => store.enclose (some outer)
  bindAll inner (parameters.zip arguments)
  return inner

variable {outer : ScopeId} {parameters : List String} {arguments : List Value}

theorem runFrom_enter (store : Store) : (enter outer parameters arguments).runFrom store =
    (.ok store.scopes.size,
      store.called outer (Scope.bindAllAmong (parameters.zip arguments) [])) := by
  show (do bindAll store.scopes.size (parameters.zip arguments)
           return store.scopes.size).runFrom (store.called outer []) = _
  rw [runFrom_bind_of_ok (Store.bindAll_called _)]
  rfl

/-- A call evaluates the body on the scope that it enters. -/
theorem call_eq_enter (inspect : Value → Except Fault String)
    (evaluate : Tree → ScopeId → Eval Value) (identity : Nat) (body : Tree) :
    call inspect evaluate (.function identity parameters body outer) arguments = (do
      let inner ← enter outer parameters arguments
      let result ← evaluate body inner
      return result.unwrap) := by
  simp only [call, enter, bind_assoc, pure_bind]

/-- Arguments without a parameter are not bound. -/
theorem zip_take_arguments (parameters : List String) (arguments : List Value) :
    parameters.zip (arguments.take parameters.length) = parameters.zip arguments := by
  rw [List.zip_eq_zip_take_min, @List.zip_eq_zip_take_min _ _ parameters arguments]
  simp [List.take_take]

/-- A parameter with an argument is at a place that both lists have. -/
theorem isSome_lookup_reverse_zip {name : String} :
    ((parameters.zip arguments).reverse.lookup name).isSome = true ↔
      ∃ place < arguments.length, parameters[place]? = some name := by
  rw [List.lookup_isSome_iff]
  constructor
  · rintro ⟨⟨first, value⟩, member, same⟩
    obtain rfl := beq_iff_eq.mp same
    obtain ⟨place, found⟩ := List.getElem?_of_mem (List.mem_reverse.mp member)
    obtain ⟨named, given⟩ := List.getElem?_zip_eq_some.mp found
    exact ⟨place, (List.getElem?_eq_some_iff.mp given).1, named⟩
  · rintro ⟨place, within, named⟩
    have found : (parameters.zip arguments)[place]? = some (name, arguments[place]) :=
      List.getElem?_zip_eq_some.mpr ⟨named, List.getElem?_eq_getElem within⟩
    exact ⟨_, List.mem_reverse.mpr (List.mem_of_getElem? found), beq_self_eq_true name⟩

/-- The last place of a parameter with an argument decides. -/
theorem lookup_reverse_zip {name : String} {place : Nat} {value : Value}
    (named : parameters[place]? = some name) (given : arguments[place]? = some value)
    (last : ∀ later, place < later → later < arguments.length → parameters[later]? ≠ some name) :
    (parameters.zip arguments).reverse.lookup name = some value := by
  have found : (parameters.zip arguments)[place]? = some (name, value) :=
    List.getElem?_zip_eq_some.mpr ⟨named, given⟩
  obtain ⟨within, here⟩ := List.getElem?_eq_some_iff.mp found
  have parts : parameters.zip arguments = (parameters.zip arguments).take place ++
      (name, value) :: (parameters.zip arguments).drop (place + 1) := by
    rw [← here, List.getElem_cons_drop, List.take_append_drop]
  refine List.lookup_eq_some_iff.mpr ⟨((parameters.zip arguments).drop (place + 1)).reverse,
    ((parameters.zip arguments).take place).reverse, ?_, fun pair member => ?_⟩
  · conv_lhs => rw [parts]
    rw [List.reverse_append, List.reverse_cons, List.append_assoc, List.singleton_append]
  · obtain ⟨step, later⟩ := List.getElem?_of_mem (List.mem_reverse.mp member)
    rw [List.getElem?_drop] at later
    obtain ⟨named', given'⟩ := List.getElem?_zip_eq_some.mp later
    have other := last _ (by omega) (List.getElem?_eq_some_iff.mp given').1
    rw [named'] at other
    simpa using fun same : name = pair.1 => other (congrArg some same.symm)

end Eval

/-- **Which argument a name has in a call.** On the scope that is made for the call, within the one
that the function was made in:

* a name that is a parameter at a place with an argument has the argument at the last such place;
* every other name has the value that it has where the function was made;
* the names of the scope are the parameters at places with an argument, in order;
* arguments beyond the parameters change nothing.

Lookups from other scopes stay as they are, and the body is evaluated on that scope. The store is any
in which scopes lie in older ones, as they do where scopes are made one after another. -/
theorem parameters_bound {store : Store} (ordered : store.Ordered) {outer : ScopeId}
    (inside : outer < store.scopes.size) (parameters : List String) (arguments : List Value) :
    ∃ inner entered,
      (Eval.enter outer parameters arguments).runFrom store = (.ok inner, entered) ∧
      (∀ name place value, parameters[place]? = some name → arguments[place]? = some value →
        (∀ later, place < later → later < arguments.length → parameters[later]? ≠ some name) →
        entered.lookup? inner name = some value) ∧
      (∀ name, (∀ place < arguments.length, parameters[place]? ≠ some name) →
        entered.lookup? inner name = entered.lookup? outer name) ∧
      (∀ other < store.scopes.size, ∀ name,
        entered.lookup? other name = store.lookup? other name) ∧
      (∀ name, name ∈ entered.names inner ↔
        ∃ place < arguments.length, parameters[place]? = some name) ∧
      (entered.names inner).Pairwise (· < ·) ∧
      Eval.enter outer parameters (arguments.take parameters.length) =
        Eval.enter outer parameters arguments ∧
      ∀ inspect evaluate identity body,
        Eval.call inspect evaluate (.function identity parameters body outer) arguments = (do
          let inner ← Eval.enter outer parameters arguments
          let result ← evaluate body inner
          return result.unwrap) := by
  let bindings := Scope.bindAllAmong (parameters.zip arguments) []
  have bound : ∀ name, bindings.lookup name =
      (parameters.zip arguments).reverse.lookup name := fun name => by
    rw [Scope.lookup_bindAllAmong, List.lookup_nil, Option.or_none]
  have looked : ∀ name, (store.called outer bindings).lookup? store.scopes.size name =
      ((parameters.zip arguments).reverse.lookup name).or (store.lookup? outer name) := fun name => by
    rw [ordered.lookup?_called inside, bound]
  have beside : ∀ other < store.scopes.size, ∀ name,
      (store.called outer bindings).lookup? other name = store.lookup? other name :=
    fun other there name => ordered.lookup?_beside_called there name
  refine ⟨_, _, Eval.runFrom_enter store, ?_, ?_, beside, ?_, ?_, ?_, Eval.call_eq_enter⟩
  · intro name place value named given last
    rw [looked, Eval.lookup_reverse_zip named given last, Option.some_or]
  · intro name other
    have unbound : (parameters.zip arguments).reverse.lookup name = none := by
      rw [← Option.not_isSome_iff_eq_none, Eval.isSome_lookup_reverse_zip]
      rintro ⟨place, within, named⟩
      exact other place within named
    rw [looked, unbound, Option.none_or, beside outer inside]
  · intro name
    rw [Store.names_called, Scope.mem_names, ← Eval.isSome_lookup_reverse_zip, ← bound]
    rfl
  · rw [Store.names_called]
    exact Scope.pairwise_names (Scope.Distinct.bindAllAmong List.nodup_nil)
  · rw [Eval.enter, Eval.zip_take_arguments]
    rfl

/-- Of two parameters of one name the later has its argument, and one without an argument is looked
for where the function was made. -/
theorem parameters_bound_repeated :
    let store := Store.initial.bind Store.root "z" (.integer 9)
    let parameters := ["x", "y", "x", "z"]
    let arguments := [.integer 1, .integer 2, .integer 3]
    store.Ordered ∧ Store.root < store.scopes.size ∧
      ∃ inner entered,
        (Eval.enter Store.root parameters arguments).runFrom store = (.ok inner, entered) ∧
        entered.lookup? inner "x" = some (.integer 3) ∧
        entered.lookup? inner "z" = some (.integer 9) ∧
        "y" ∈ entered.names inner ∧ "z" ∉ entered.names inner := by
  intro store parameters arguments
  have ordered : store.Ordered :=
    Store.WellFounded.initial.ordered.congr (Store.outers_bind ..)
  have inside : Store.root < store.scopes.size := by decide
  have absent : ∀ place < arguments.length, parameters[place]? ≠ some "z" := by decide
  obtain ⟨inner, entered, ran, given, others, beside, names, -⟩ :=
    parameters_bound ordered inside parameters arguments
  refine ⟨ordered, inside, inner, entered, ran, given "x" 2 _ rfl rfl ?_, ?_,
    (names "y").mpr ⟨1, by decide, rfl⟩, fun named => ?_⟩
  · intro later behind within
    exact absurd behind (Nat.not_lt.mpr (Nat.le_of_lt_succ within))
  · rw [others "z" absent, beside Store.root inside]
    rfl
  · obtain ⟨place, within, same⟩ := (names "z").mp named
    exact absent place within same

end Scriptlet
