/-
**Values and stores without places.**

A function keeps the tree of its body, and the tokens in it keep their places in the text. Nothing
that is seen of a value depends on them.

* `Value.unplaced`: a value without the places in the bodies of the functions in it.
* `Store.unplaced`: a store where no value has any.

Main statements: values that are alike but for places are seen as the same, if they have a text
(`Value.seen_of_unplaced`); and names are bound and found in a store as in the one without places
(`Store.unplaced_bind`, `Store.lookup?_unplaced`).
-/
import Scriptlet.Proofs.Tree.Unplaced
import Scriptlet.Proofs.Value.Embedding
import Scriptlet.Store

namespace Scriptlet

namespace Value

mutual

/-- A value without the places in the bodies of the functions in it. -/
def unplaced : Value → Value
  | array identity elements => array identity (unplacedAll elements)
  | hash identity pairs => hash identity (unplacedPairs pairs)
  | function identity parameters body scope => function identity parameters body.unplaced scope
  | returned identity operand => returned identity operand.unplaced
  | value => value

/-- Values without places. -/
def unplacedAll : List Value → List Value
  | [] => []
  | value :: rest => value.unplaced :: unplacedAll rest

/-- Pairs of values without places. -/
def unplacedPairs : List (Value × Value) → List (Value × Value)
  | [] => []
  | (key, value) :: rest => (key.unplaced, value.unplaced) :: unplacedPairs rest

end

theorem unplacedAll_eq_map (values : List Value) : unplacedAll values = values.map unplaced := by
  induction values with
  | nil => rfl
  | cons value rest ih => simp [unplacedAll, ih]

@[simp] theorem unplaced_array (identity : Nat) (elements : List Value) :
    (array identity elements).unplaced = .array identity (elements.map unplaced) := by
  rw [← unplacedAll_eq_map]
  rfl

theorem unplaced_eq_nothing {value : Value} : value.unplaced = .nothing ↔ value = .nothing := by
  cases value <;> simp [unplaced]

theorem unplaced_eq_integer {value : Value} {number : Int} :
    value.unplaced = .integer number ↔ value = .integer number := by
  cases value <;> simp [unplaced]

theorem unplaced_eq_string {value : Value} {identity : Nat} {text : String} :
    value.unplaced = .string identity text ↔ value = .string identity text := by
  cases value <;> simp [unplaced]

/-! ### What is seen of a value -/

@[simp] theorem tag?_unplaced (value : Value) : value.unplaced.tag? = value.tag? := by
  cases value <;> rfl

@[simp] theorem isSignal_unplaced (value : Value) : value.unplaced.isSignal = value.isSignal := by
  cases value <;> rfl

@[simp] theorem isTruthy_unplaced (value : Value) : value.unplaced.isTruthy = value.isTruthy := by
  cases value <;> rfl

@[simp] theorem key?_unplaced (value : Value) : value.unplaced.key? = value.key? := by
  cases value <;> rfl

@[simp] theorem operand_unplaced (value : Value) :
    value.unplaced.operand = value.operand.unplaced := by
  cases value <;> rfl

@[simp] theorem unwrap_unplaced (value : Value) :
    value.unplaced.unwrap = value.unwrap.unplaced := by
  cases value <;> rfl

@[simp] theorem orNull_unplaced (value : Value) :
    value.unplaced.orNull = value.orNull.unplaced := by
  cases value <;> rfl

@[simp] theorem same_unplaced (left right : Value) :
    left.unplaced.same right.unplaced = left.same right := by
  cases left <;> cases right <;> rfl

/-- Pairs with one more, without places. -/
theorem unplacedPairs_putPair (key value : Value) (pairs : List (Value × Value)) :
    unplacedPairs (putPair key value pairs) =
      putPair key.unplaced value.unplaced (unplacedPairs pairs) := by
  induction pairs with
  | nil => rfl
  | cons pair rest ih =>
    obtain ⟨first, old⟩ := pair
    simp only [putPair, unplacedPairs, key?_unplaced]
    split
    · rfl
    · rw [unplacedPairs, ih]

mutual

/-- A value without places has the same text, or lacks it for the same reason. -/
theorem inspect_unplaced : (value : Value) →
    value.unplaced.inspect = value.inspect.mapError Fault.unplaced
  | .array _ elements => by simp [unplaced, inspect, inspectAll_unplaced elements]
  | .hash _ pairs => by simp [unplaced, inspect, inspectPairs_unplaced pairs]
  | .function _ _ body _ => by simp [unplaced, inspect, Tree.render_unplaced body]
  | .returned _ operand => by simp only [unplaced, inspect, inspect_unplaced operand]
  | .nothing | .integer _ | .boolean _ | .string _ _ | .null | .builtin _ | .error _ _ => by
    simp [unplaced, inspect, Fault.unplaced]

/-- The same of values. -/
theorem inspectAll_unplaced : (values : List Value) →
    inspectAll (unplacedAll values) = (inspectAll values).mapError Fault.unplaced
  | [] => rfl
  | value :: rest => by
    simp [unplacedAll, inspectAll, inspect_unplaced value, inspectAll_unplaced rest]

/-- The same of pairs of values. -/
theorem inspectPairs_unplaced : (pairs : List (Value × Value)) →
    inspectPairs (unplacedPairs pairs) = (inspectPairs pairs).mapError Fault.unplaced
  | [] => rfl
  | (key, value) :: rest => by
    simp [unplacedPairs, inspectPairs, inspect_unplaced key, inspect_unplaced value,
      inspectPairs_unplaced rest]

end

mutual

/-- The text of a value takes as many nested calls without places. -/
theorem depth_unplaced : (value : Value) → value.unplaced.depth = value.depth
  | .array _ elements => by simp only [unplaced, depth, depthAll_unplaced elements]
  | .hash _ pairs => by simp only [unplaced, depth, depthPairs_unplaced pairs]
  | .function _ _ body _ => by simp only [unplaced, depth, body.depth_unplaced]
  | .returned _ operand => by simp only [unplaced, depth, depth_unplaced operand]
  | .nothing | .integer _ | .boolean _ | .string _ _ | .null | .builtin _ | .error _ _ => rfl

/-- The same of values. -/
theorem depthAll_unplaced : (values : List Value) → depthAll (unplacedAll values) = depthAll values
  | [] => rfl
  | value :: rest => by
    simp only [unplacedAll, depthAll, depth_unplaced value, depthAll_unplaced rest]

/-- The same of pairs of values. -/
theorem depthPairs_unplaced : (pairs : List (Value × Value)) →
    depthPairs (unplacedPairs pairs) = depthPairs pairs
  | [] => rfl
  | (key, value) :: rest => by
    simp only [unplacedPairs, depthPairs, depth_unplaced key, depth_unplaced value,
      depthPairs_unplaced rest]

end

/-- The text within a limit does not depend on places. -/
theorem inspectWithin_unplaced (limit : Nat) (value : Value) :
    value.unplaced.inspectWithin limit =
      (value.inspectWithin limit).mapError Fault.unplaced := by
  rw [inspectWithin, inspectWithin, depth_unplaced, inspect_unplaced]
  split <;> rfl

/-- A value that is there is rendered as its text. -/
theorem rendered_eq {value : Value} (present : value ≠ .nothing) :
    value.rendered = value.inspect.map some := by
  cases value with
  | nothing => exact absurd rfl present
  | _ => rfl

/-- **Values that are alike but for places are seen as the same**, if they can be rendered. -/
theorem seen_of_unplaced {first second : Value} (alike : first.unplaced = second.unplaced)
    (shown : ∃ text, second.rendered = .ok text) : first.seen = second.seen := by
  have tags : first.tag? = second.tag? := by rw [← tag?_unplaced, alike, tag?_unplaced]
  have texts : first.inspect.mapError Fault.unplaced = second.inspect.mapError Fault.unplaced := by
    rw [← inspect_unplaced, alike, inspect_unplaced]
  have same : first.inspect = second.inspect := by
    by_cases absent : second = .nothing
    · subst absent
      cases first <;> first | rfl | cases tags
    · obtain ⟨text, shown⟩ := shown
      rw [rendered_eq absent] at shown
      cases written : second.inspect with
      | error fault =>
        rw [written] at shown
        cases shown
      | ok known =>
        rw [written] at texts
        cases found : first.inspect with
        | error fault =>
          rw [found] at texts
          cases texts
        | ok other =>
          rw [found] at texts
          exact texts
  rw [seen, seen, tags, same]

end Value

/-! ### Stores -/

/-- A scope where no value has places. -/
def Scope.unplaced (scope : Scope) : Scope :=
  ⟨scope.outer, scope.bindings.map fun pair => (pair.1, pair.2.unplaced)⟩

/-- A store where no value has places. -/
def Store.unplaced (store : Store) : Store :=
  ⟨store.scopes.map Scope.unplaced, store.identities, store.printed⟩

namespace Scope

theorem find?_unplaced (scope : Scope) (name : String) :
    scope.unplaced.find? name = (scope.find? name).map Value.unplaced := by
  simp only [unplaced, find?]
  induction scope.bindings with
  | nil => rfl
  | cons pair rest ih =>
    rw [List.map_cons, List.lookup_cons, List.lookup_cons]
    split
    · rfl
    · exact ih

theorem unplaced_bind (scope : Scope) (name : String) (value : Value) :
    (scope.bind name value).unplaced = scope.unplaced.bind name value.unplaced := by
  simp only [unplaced, bind, Scope.mk.injEq, true_and]
  induction scope.bindings with
  | nil => rfl
  | cons pair rest ih =>
    simp only [bindAmong, List.map_cons]
    split
    · rfl
    · rw [List.map_cons, ih]

end Scope

namespace Store

theorem scopes_unplaced (store : Store) (id : ScopeId) :
    store.unplaced.scopes[id]? = store.scopes[id]?.map Scope.unplaced := by
  simp [unplaced]

@[simp] theorem unplaced_print (store : Store) (line : String) :
    (store.print line).unplaced = store.unplaced.print line := rfl

@[simp] theorem unplaced_enclose (store : Store) (outer : Option ScopeId) :
    store.unplaced.enclose outer = ((store.enclose outer).1, (store.enclose outer).2.unplaced) := by
  simp [enclose, unplaced, Scope.unplaced]

/-- **A name is bound as without places.** -/
@[simp] theorem unplaced_bind (store : Store) (id : ScopeId) (name : String) (value : Value) :
    (store.bind id name value).unplaced = store.unplaced.bind id name value.unplaced := by
  simp only [bind, unplaced, Store.mk.injEq, and_self, and_true]
  apply Array.ext_getElem?
  intro place
  simp only [Array.getElem?_map, Array.getElem?_modify]
  split
  · rw [Option.map_map, Option.map_map]
    congr 1
    funext scope
    exact scope.unplaced_bind name value
  · rfl

theorem chainWithin_unplaced (store : Store) (bound : Nat) (id : ScopeId) :
    store.unplaced.chainWithin bound id = (store.chainWithin bound id).map Scope.unplaced := by
  induction bound generalizing id with
  | zero => rfl
  | succ bound ih =>
    simp only [chainWithin, scopes_unplaced]
    cases store.scopes[id]? with
    | none => rfl
    | some scope =>
      obtain ⟨outer, bindings⟩ := scope
      cases outer with
      | none => rfl
      | some outer => exact congrArg (List.cons _) (ih outer)

/-- **A name is found as without places.** -/
theorem lookup?_unplaced (store : Store) (id : ScopeId) (name : String) :
    store.unplaced.lookup? id name = (store.lookup? id name).map Value.unplaced := by
  rw [lookup?, lookup?, chain, chain, chainWithin_unplaced]
  induction store.chainWithin (id + 1) id with
  | nil => rfl
  | cons scope rest ih =>
    rw [List.map_cons, List.findSome?_cons, List.findSome?_cons, Scope.find?_unplaced]
    cases scope.find? name with
    | none => exact ih
    | some value => rfl

/-- The bindings of a scope without places. -/
theorem bindings_unplaced (store : Store) (id : ScopeId) :
    store.unplaced.bindings id = (store.bindings id).map fun pair => (pair.1, pair.2.unplaced) := by
  rw [bindings, bindings, scopes_unplaced]
  cases store.scopes[id]? <;> rfl

end Store

end Scriptlet
