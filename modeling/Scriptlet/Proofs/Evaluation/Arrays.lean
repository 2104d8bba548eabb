/-
**Arrays and the builtins on them.**

An array is a list of values. `first` and `last` read it as an index does, `rest` and `push` yield
arrays with an identity of their own.

* `Eval.elementAt`: what is at an index; null outside of the list.
* `Eval.restTimes`: `rest` applied some number of times.
* `Eval.takenOut`: what `first` and `rest` take from an array one after another.
* `Eval.pushAll`: values pushed onto an array one after another.

Main statements: `Eval.runFrom_restTimes`, `Eval.runFrom_takenOut` and `Eval.runFrom_pushAll`, by
induction on how often a builtin is called; and `array_builtins_agree`.
-/
import Scriptlet.Proofs.Evaluation.Terms

namespace Scriptlet

/-- A store once some more identities were given out. -/
def Store.spent (store : Store) (count : Nat) : Store :=
  { store with identities := store.identities + count }

theorem Store.spent_identify (store : Store) (count : Nat) :
    store.identify.2.spent count = store.spent (count + 1) :=
  congrArg (Store.mk store.scopes · store.printed) (Nat.add_right_comm _ _ _)

namespace Eval

variable (inspect : Value → Except Fault String) (identity : Nat) (elements : List Value)

/-! ### What is read from an array -/

/-- What is at an index; null outside of the list. -/
def elementAt (index : Int) : Value :=
  if index < 0 then .null else elements[index.toNat]?.getD .null

theorem elementAt_natCast (index : Nat) :
    elementAt elements index = elements[index]?.getD .null :=
  if_neg (Int.not_lt.mpr (Int.natCast_nonneg index))

/-- Null is what lies outside of the list, and the elements that are null. -/
theorem elementAt_eq_null (index : Int) : elementAt elements index = .null ↔
    index < 0 ∨ elements.length ≤ index ∨ elements[index.toNat]? = some .null := by
  unfold elementAt
  split
  next negative => simp [negative]
  next inside =>
    have outside : elements[index.toNat]? = none ↔ (elements.length : Int) ≤ index := by
      rw [List.getElem?_eq_none_iff]
      omega
    rw [← outside]
    cases elements[index.toNat]? <;> simp [inside]

theorem applyIndex_array (index : Int) :
    applyIndex (.array identity elements) (.integer index) = return elementAt elements index := by
  by_cases negative : index < 0 <;> simp [applyIndex, elementAt, negative]

theorem first_array :
    callBuiltin inspect .first [.array identity elements] = return elementAt elements 0 := by
  show (return elements.head?.getD .null : Eval Value) = _
  rw [List.head?_eq_getElem?]
  rfl

theorem last_array : callBuiltin inspect .last [.array identity elements] =
    return elementAt elements (elements.length - 1) := by
  show (return elements.getLast?.getD .null : Eval Value) = _
  cases elements with
  | nil => rfl
  | cons first rest =>
    have shorter : ((first :: rest).length : Int) - 1 = (rest.length : Int) := by
      rw [List.length_cons]
      omega
    rw [shorter, elementAt_natCast, List.getLast?_eq_getElem?]
    rfl

theorem len_array :
    callBuiltin inspect .len [.array identity elements] = return .integer elements.length := rfl

/-- The last element read at an index that is computed, where the length is an integer of 64 bits. -/
theorem last_eq_computed (fits : Number.Fits elements.length) :
    callBuiltin inspect .last [.array identity elements] = (do
      let length ← callBuiltin inspect .len [.array identity elements]
      let index ← applyBinary "-" length (.integer 1)
      applyIndex (.array identity elements) index) := by
  have wrapped : Number.wrap (elements.length - 1) = elements.length - 1 := by
    refine Number.wrap_of_mem ?_
    unfold Number.Fits Number.least at fits ⊢
    omega
  show _ = applyIndex (.array identity elements)
    (.integer (Number.wrap ((elements.length : Int) - 1)))
  rw [wrapped, applyIndex_array, last_array]

/-! ### Arrays that are made -/

variable {store : Store}

theorem runFrom_rest (first : Value) :
    (callBuiltin inspect .rest [.array identity (first :: elements)]).runFrom store =
      (.ok (.array store.identities elements), store.identify.2) := rfl

theorem runFrom_push (item : Value) :
    (callBuiltin inspect .push [.array identity elements, item]).runFrom store =
      (.ok (.array store.identities (elements ++ [item])), store.identify.2) := rfl

variable {elements} in
/-- Of an array that is not empty, the rest may be taken before something is pushed or after. -/
theorem rest_push_comm (some_ : elements ≠ []) (item : Value) :
    (do callBuiltin inspect .push [← callBuiltin inspect .rest [.array identity elements], item]) =
      (do callBuiltin inspect .rest [← callBuiltin inspect .push [.array identity elements, item]] :
        Eval Value) := by
  obtain ⟨first, rest, rfl⟩ := List.exists_cons_of_ne_nil some_
  rfl

/-- What `rest` yields when it is applied some number of times. -/
def restTimes : Nat → Value → Eval Value
  | 0, value => return value
  | count + 1, value => do restTimes count (← callBuiltin inspect .rest [value])

/-- **Taking the rest drops as many elements**, as long as there are any. -/
theorem runFrom_restTimes {count : Nat} (within : count ≤ elements.length) :
    ∃ other, (restTimes inspect count (.array identity elements)).runFrom store =
      (.ok (.array other (elements.drop count)), store.spent count) := by
  induction count generalizing identity elements store with
  | zero => exact ⟨identity, rfl⟩
  | succ count ih =>
    obtain ⟨first, rest, rfl⟩ := List.exists_cons_of_length_pos (Nat.zero_lt_of_lt within)
    have shorter : count ≤ rest.length := Nat.le_of_succ_le_succ within
    obtain ⟨other, ran⟩ := @ih store.identities rest store.identify.2 shorter
    refine ⟨other, ?_⟩
    rw [restTimes, runFrom_bind_of_ok (runFrom_rest inspect identity rest first), ran, List.drop_succ_cons,
      Store.spent_identify]

/-- What `first` and `rest` take from an array one after another. -/
def takenOut : Nat → Value → Eval (List Value)
  | 0, _ => return []
  | count + 1, value => do
    let first ← callBuiltin inspect .first [value]
    let rest ← callBuiltin inspect .rest [value]
    return first :: (← takenOut count rest)

/-- **What is taken out of an array are its elements.** -/
theorem runFrom_takenOut :
    (takenOut inspect elements.length (.array identity elements)).runFrom store =
      (.ok elements, store.spent elements.length) := by
  induction elements generalizing identity store with
  | nil => rfl
  | cons first rest ih =>
    have tail := @ih store.identities store.identify.2
    rw [Store.spent_identify] at tail
    rw [List.length_cons, takenOut, first_array, pure_bind,
      runFrom_bind_of_ok (runFrom_rest inspect identity rest first), runFrom_return, tail]
    rfl

/-- Values pushed onto an array one after another. -/
def pushAll (array : Value) (items : List Value) : Eval Value :=
  items.foldlM (fun pushed item => callBuiltin inspect .push [pushed, item]) array

/-- **What is pushed onto an array follows its elements in order.** -/
theorem runFrom_pushAll (items : List Value) :
    ∃ other, (pushAll inspect (.array identity elements) items).runFrom store =
      (.ok (.array other (elements ++ items)), store.spent items.length) := by
  induction items generalizing identity elements store with
  | nil => exact ⟨identity, by rw [List.append_nil]; rfl⟩
  | cons item rest ih =>
    obtain ⟨other, ran⟩ := @ih store.identities (elements ++ [item]) store.identify.2
    refine ⟨other, ?_⟩
    rw [pushAll, List.foldlM_cons, runFrom_bind_of_ok (runFrom_push inspect identity elements item)]
    rw [pushAll, List.append_assoc, Store.spent_identify] at ran
    exact ran

/-! ### How they agree -/

/-- What indexing and the builtins have to do with each other on an array of some elements, and an
item that may be pushed onto it. -/
structure ArrayLaws (array : Value) (elements : List Value) (item : Value) : Prop where
  inside (index : Nat) (element : Value) : elements[index]? = some element →
    applyIndex array (.integer index) = pure element
  null (index : Int) : applyIndex array (.integer index) = pure .null ↔
    index < 0 ∨ elements.length ≤ index ∨ elements[index.toNat]? = some .null
  rest (count : Nat) : count ≤ elements.length → ∀ store, ∃ other,
    (restTimes inspect count array).runFrom store =
        (.ok (.array other (elements.drop count)), store.spent count) ∧
      callBuiltin inspect .first [.array other (elements.drop count)] =
        applyIndex array (.integer count)
  first : callBuiltin inspect .first [array] = applyIndex array (.integer 0)
  last : callBuiltin inspect .last [array] = applyIndex array (.integer (elements.length - 1))
  lastComputed : Number.Fits elements.length → callBuiltin inspect .last [array] = (do
    let length ← callBuiltin inspect .len [array]
    let index ← applyBinary "-" length (.integer 1)
    applyIndex array index)
  push (store : Store) : ∃ pushed,
    (callBuiltin inspect .push [array, item]).runFrom store = (.ok pushed, store.spent 1) ∧
      callBuiltin inspect .len [pushed] = pure (.integer (elements.length + 1)) ∧
      (∀ index : Nat, index < elements.length →
        applyIndex pushed (.integer index) = applyIndex array (.integer index)) ∧
      applyIndex pushed (.integer elements.length) = pure item
  comm : elements ≠ [] →
    (do callBuiltin inspect .push [← callBuiltin inspect .rest [array], item]) =
      (do callBuiltin inspect .rest [← callBuiltin inspect .push [array, item]] : Eval Value)
  rebuilt (store : Store) (start : Nat) : ∃ other,
    (do pushAll inspect (.array start []) (← takenOut inspect elements.length array)).runFrom store =
      (.ok (.array other elements), store.spent (elements.length + elements.length))

/-- Two evaluations that do no more than return something are the same if they return the same. -/
theorem return_inj {first second : Value} :
    (pure first : Eval Value) = pure second ↔ first = second := by
  refine ⟨fun same => ?_, fun same => by rw [same]⟩
  have ran := congrArg (runFrom · .initial) same
  simpa using ran

/-- An array is rebuilt from what is taken out of it. -/
theorem runFrom_rebuilt (store : Store) (start : Nat) : ∃ other,
    (do
      let items ← takenOut inspect elements.length (.array identity elements)
      pushAll inspect (.array start []) items).runFrom store =
      (.ok (.array other elements), store.spent (elements.length + elements.length)) := by
  obtain ⟨other, ran⟩ := @runFrom_pushAll inspect start [] (store.spent elements.length) elements
  refine ⟨other, ?_⟩
  rw [runFrom_bind_of_ok (runFrom_takenOut inspect identity elements), ran]
  rw [Store.spent, Store.spent, Store.spent, Nat.add_assoc]
  rfl

end Eval

/-- **Indexing and the builtins agree on what an array is.** Taking the rest drops elements, and what
is first after it is what stood at that index; the first and the last element are those at the two
ends; null is what lies outside, or an element that is null; what is pushed comes last; and an array
is rebuilt from what is taken out of it. -/
theorem array_builtins_agree (inspect : Value → Except Fault String) (identity : Nat)
    (elements : List Value) (item : Value) :
    Eval.ArrayLaws inspect (.array identity elements) elements item where
  inside index element found := by
    rw [Eval.applyIndex_array, Eval.elementAt_natCast, found]
    rfl
  null index := by
    rw [Eval.applyIndex_array, Eval.return_inj, Eval.elementAt_eq_null]
  rest count within store := by
    obtain ⟨other, ran⟩ := Eval.runFrom_restTimes inspect identity elements within
    refine ⟨other, ran, ?_⟩
    rw [Eval.first_array, Eval.applyIndex_array, Eval.elementAt_natCast,
      ← Int.natCast_zero, Eval.elementAt_natCast, List.getElem?_drop, Nat.add_zero]
  first := by rw [Eval.first_array, Eval.applyIndex_array]
  last := by rw [Eval.last_array, Eval.applyIndex_array]
  lastComputed fits := Eval.last_eq_computed inspect identity elements fits
  push store := by
    refine ⟨_, Eval.runFrom_push inspect identity elements item, ?_, fun index inside => ?_, ?_⟩
    · rw [Eval.len_array, List.length_append]
      rfl
    · rw [Eval.applyIndex_array, Eval.applyIndex_array, Eval.elementAt_natCast,
        Eval.elementAt_natCast, List.getElem?_append_left inside]
    · rw [Eval.applyIndex_array, Eval.elementAt_natCast, List.getElem?_concat_length]
      rfl
  comm some_ := Eval.rest_push_comm inspect identity some_ item
  rebuilt store start := Eval.runFrom_rebuilt inspect identity elements store start

/-- The rest is taken twice from an array with null in it, an integer is pushed onto the rest of it,
and its last element is read at the index that is computed. -/
theorem array_builtins_agree_null :
    let elements : List Value := [.boolean true, .null, .integer 3]
    let array := Value.array 0 elements
    let inspect := Value.inspectWithin 9
    (∃ other, (Eval.restTimes inspect 2 array).runFrom .initial =
      (.ok (.array other [.integer 3]), Store.initial.spent 2)) ∧
      Eval.applyIndex array (.integer 1) = pure .null ∧
      (do Eval.callBuiltin inspect .push [← Eval.callBuiltin inspect .rest [array], .integer 4]) =
        (do Eval.callBuiltin inspect .rest [← Eval.callBuiltin inspect .push [array, .integer 4]] :
          Eval Value) ∧
      Eval.callBuiltin inspect .last [array] = (do
        let length ← Eval.callBuiltin inspect .len [array]
        let index ← Eval.applyBinary "-" length (.integer 1)
        Eval.applyIndex array index) := by
  intro elements array inspect
  have laws := array_builtins_agree inspect 0 elements (.integer 4)
  obtain ⟨other, ran, -⟩ := laws.rest 2 (by decide) .initial
  exact ⟨⟨other, ran⟩, laws.inside 1 _ rfl, laws.comm (by decide), laws.lastComputed (by decide)⟩

end Scriptlet
