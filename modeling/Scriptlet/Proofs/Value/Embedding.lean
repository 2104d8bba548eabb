/-
**Values of one run as they stand in another.**

Two runs of the same program may make their scopes and identities at other places: one is made
beside names that the other lacks, or inside of a scope that the other lacks. Then a value of the one
run stands in the other with its scopes and identities at their places there.

* `Embedding`: where the scopes and identities of one run stand in another, with what the other run
  has besides.
* `Embedding.value`: a value as it stands in the other run.
* `Embedding.Visible`, `Embedding.Reads`: the names that no binding of the other run hides, and the
  tokens that name no other ones.
* `Embedding.Admits`: the functions in a value were made in a scope that is there, and read only
  visible names.

Main statement: a value and its image have the same type and text (`Embedding.seen_value`), stand
for the same truth and key, and two values are the same if and only if their images are
(`Embedding.same_value`).
-/
import Scriptlet.Proofs.Tree.Shape
import Scriptlet.Proofs.Value.Held
import Scriptlet.Value.Text

namespace Scriptlet

/-- What is seen of a value: its type and its text. -/
def Value.seen (value : Value) : Option Tag × Except Fault String :=
  (value.tag?, value.inspect)

/-- Where the scopes and identities of one run stand in another, with what the other run has
besides. -/
structure Embedding where
  scope : ScopeId → ScopeId
  identity : Nat → Nat
  /-- The scope, if any, around those that lie in no other. It binds nothing. -/
  around : Option ScopeId
  /-- What is bound besides on the place of a scope. -/
  beside : ScopeId → List (String × Value)
  /-- What was printed before. -/
  printed : List String
  rising : ∀ {first second}, first < second → scope first < scope second
  distinct : ∀ {first second}, identity first = identity second → first = second
  outside : ∀ id, around ≠ some (scope id)

namespace Embedding

variable (embedding : Embedding)

mutual

/-- A value as it stands in the other run. -/
def value : Value → Value
  | .string identity text => .string (embedding.identity identity) text
  | .array identity elements => .array (embedding.identity identity) (values elements)
  | .hash identity items => .hash (embedding.identity identity) (pairs items)
  | .function identity parameters body scope =>
    .function (embedding.identity identity) parameters body (embedding.scope scope)
  | .returned identity operand => .returned (embedding.identity identity) (value operand)
  | .error identity complaint => .error (embedding.identity identity) complaint
  | .nothing => .nothing
  | .integer number => .integer number
  | .boolean truth => .boolean truth
  | .null => .null
  | .builtin known => .builtin known

/-- Values as they stand in the other run. -/
def values : List Value → List Value
  | [] => []
  | first :: rest => value first :: values rest

/-- Pairs of values as they stand in the other run. -/
def pairs : List (Value × Value) → List (Value × Value)
  | [] => []
  | (key, item) :: rest => (value key, value item) :: pairs rest

end

/-- No binding besides hides the name. -/
def Visible (name : String) : Prop :=
  ∀ id, ∀ pair ∈ embedding.beside id, pair.1 ≠ name

/-- A token that is a name is a visible one. -/
def Reads (token : Token) : Prop :=
  token.kind = .identifier → embedding.Visible token.text

/-- A function made in one of so many scopes, which reads visible names only; or no function. -/
def IsAdmitted (scopes : Nat) : Value → Prop
  | .function _ _ body scope => scope < scopes ∧ body.Shaped embedding.Reads .block
  | _ => True

/-- The functions in a value are made in one of so many scopes, and read visible names only. -/
def Admits (scopes : Nat) (value : Value) : Prop :=
  value.Throughout (embedding.IsAdmitted scopes)

variable {embedding}

/-! ### Places -/

/-- Two scopes stand at two places. -/
theorem scope_inj {first second : ScopeId} :
    embedding.scope first = embedding.scope second ↔ first = second := by
  refine ⟨fun same => ?_, fun same => by rw [same]⟩
  rcases Nat.lt_trichotomy first second with less | equal | greater
  · exact absurd same (Nat.ne_of_lt (embedding.rising less))
  · exact equal
  · exact absurd same (Nat.ne_of_gt (embedding.rising greater))

/-- Two identities stand at two places. -/
theorem identity_inj {first second : Nat} :
    embedding.identity first = embedding.identity second ↔ first = second :=
  ⟨embedding.distinct, fun same => by rw [same]⟩

/-! ### Values -/

theorem values_eq_map (items : List Value) :
    embedding.values items = items.map embedding.value := by
  induction items with
  | nil => rfl
  | cons first rest ih => simp [values, ih]

theorem value_array (identity : Nat) (elements : List Value) :
    embedding.value (.array identity elements) =
      .array (embedding.identity identity) (elements.map embedding.value) := by
  rw [value, values_eq_map]

theorem value_eq_nothing {value : Value} : embedding.value value = .nothing ↔ value = .nothing := by
  cases value <;> simp [Embedding.value]

theorem value_eq_integer {value : Value} {number : Int} :
    embedding.value value = .integer number ↔ value = .integer number := by
  cases value <;> simp [Embedding.value]

theorem exists_of_value_eq_string {value : Value} {identity : Nat} {text : String}
    (image : embedding.value value = .string identity text) :
    ∃ identity, value = .string identity text := by
  cases value <;> simp_all [Embedding.value]

@[simp] theorem tag?_value (value : Value) : (embedding.value value).tag? = value.tag? := by
  cases value <;> rfl

@[simp] theorem isSignal_value (value : Value) :
    (embedding.value value).isSignal = value.isSignal := by
  cases value <;> rfl

@[simp] theorem isTruthy_value (value : Value) :
    (embedding.value value).isTruthy = value.isTruthy := by
  cases value <;> rfl

@[simp] theorem key?_value (value : Value) : (embedding.value value).key? = value.key? := by
  cases value <;> rfl

@[simp] theorem operand_value (value : Value) :
    (embedding.value value).operand = embedding.value value.operand := by
  cases value <;> rfl

@[simp] theorem unwrap_value (value : Value) :
    (embedding.value value).unwrap = embedding.value value.unwrap := by
  cases value <;> rfl

@[simp] theorem orNull_value (value : Value) :
    (embedding.value value).orNull = embedding.value value.orNull := by
  cases value <;> rfl

/-- **Two values are the same if and only if their images are.** -/
@[simp] theorem same_value (left right : Value) :
    (embedding.value left).same (embedding.value right) = left.same right := by
  cases left <;> cases right <;>
    simp [value, Value.same, Value.identity?, Value.tag?, identity_inj, Bool.beq_eq_decide_eq]

mutual

/-- A value and its image have the same text. -/
theorem inspect_value : (value : Value) → (embedding.value value).inspect = value.inspect
  | .array _ elements => by simp only [value, Value.inspect, inspectAll_values elements]
  | .hash _ items => by simp only [value, Value.inspect, inspectPairs_pairs items]
  | .returned _ operand => by simp only [value, Value.inspect, inspect_value operand]
  | .nothing | .integer _ | .boolean _ | .string _ _ | .null | .function _ _ _ _ | .builtin _
  | .error _ _ => by simp only [value, Value.inspect]

/-- The same of values. -/
theorem inspectAll_values : (items : List Value) →
    Value.inspectAll (embedding.values items) = Value.inspectAll items
  | [] => rfl
  | first :: rest => by
    simp only [values, Value.inspectAll, inspect_value first, inspectAll_values rest]

/-- The same of pairs of values. -/
theorem inspectPairs_pairs : (items : List (Value × Value)) →
    Value.inspectPairs (embedding.pairs items) = Value.inspectPairs items
  | [] => rfl
  | (key, item) :: rest => by
    simp only [pairs, Value.inspectPairs, inspect_value key, inspect_value item,
      inspectPairs_pairs rest]

end

mutual

/-- The text of a value and that of its image take as many nested calls. -/
theorem depth_value : (value : Value) → (embedding.value value).depth = value.depth
  | .array _ elements => by simp only [value, Value.depth, depthAll_values elements]
  | .hash _ items => by simp only [value, Value.depth, depthPairs_pairs items]
  | .returned _ operand => by simp only [value, Value.depth, depth_value operand]
  | .nothing | .integer _ | .boolean _ | .string _ _ | .null | .function _ _ _ _ | .builtin _
  | .error _ _ => by simp only [value, Value.depth]

/-- The same of values. -/
theorem depthAll_values : (items : List Value) →
    Value.depthAll (embedding.values items) = Value.depthAll items
  | [] => rfl
  | first :: rest => by
    simp only [values, Value.depthAll, depth_value first, depthAll_values rest]

/-- The same of pairs of values. -/
theorem depthPairs_pairs : (items : List (Value × Value)) →
    Value.depthPairs (embedding.pairs items) = Value.depthPairs items
  | [] => rfl
  | (key, item) :: rest => by
    simp only [pairs, Value.depthPairs, depth_value key, depth_value item, depthPairs_pairs rest]

end

/-- A value and its image have the same text within every limit. -/
theorem inspectWithin_value (limit : Nat) (value : Value) :
    (embedding.value value).inspectWithin limit = value.inspectWithin limit := by
  rw [Value.inspectWithin, Value.inspectWithin, depth_value, inspect_value]

/-- **A value and its image have the same type and text.** -/
@[simp] theorem seen_value (value : Value) : (embedding.value value).seen = value.seen := by
  simp [Value.seen, inspect_value]

/-- The image of a hash with one more pair. -/
theorem pairs_putPair (key item : Value) (items : List (Value × Value)) :
    embedding.pairs (Value.putPair key item items) =
      Value.putPair (embedding.value key) (embedding.value item) (embedding.pairs items) := by
  induction items with
  | nil => rfl
  | cons pair rest ih =>
    obtain ⟨first, old⟩ := pair
    simp only [Value.putPair, pairs, key?_value]
    split
    · rfl
    · rw [pairs, ih]

/-! ### Admitted values -/

namespace Admits

variable {scopes : Nat} {value : Value}

/-- A value without parts that is no function. -/
theorem of_parts_eq_nil (here : embedding.IsAdmitted scopes value) (simple : value.parts = []) :
    embedding.Admits scopes value :=
  Value.Throughout.of_parts_eq_nil here simple

/-- A scope that is there stays there. -/
theorem mono {more : Nat} (admitted : embedding.Admits scopes value) (within : scopes ≤ more) :
    embedding.Admits more value := by
  refine Value.Throughout.mono admitted fun inner here => ?_
  cases inner with
  | function => exact ⟨Nat.lt_of_lt_of_le here.1 within, here.2⟩
  | _ => trivial

theorem array {identity : Nat} {elements : List Value}
    (each : ∀ element ∈ elements, embedding.Admits scopes element) :
    embedding.Admits scopes (.array identity elements) :=
  Value.Throughout.array trivial each

theorem hash {identity : Nat} {items : List (Value × Value)}
    (each : ∀ pair ∈ items, embedding.Admits scopes pair.1 ∧ embedding.Admits scopes pair.2) :
    embedding.Admits scopes (.hash identity items) :=
  Value.Throughout.hash trivial each

theorem returned {identity : Nat} (admitted : embedding.Admits scopes value) :
    embedding.Admits scopes (.returned identity value) :=
  .intro trivial (List.forall_mem_singleton.mpr admitted)

theorem operand (admitted : embedding.Admits scopes value) :
    embedding.Admits scopes value.operand := by
  cases value with
  | returned => exact admitted.part _ List.mem_cons_self
  | _ => exact admitted

theorem orNull (admitted : embedding.Admits scopes value) :
    embedding.Admits scopes value.orNull := by
  cases value with
  | nothing => exact of_parts_eq_nil trivial rfl
  | _ => exact admitted

theorem unwrap (admitted : embedding.Admits scopes value) :
    embedding.Admits scopes value.unwrap := by
  cases value with
  | nothing => exact of_parts_eq_nil trivial rfl
  | returned => exact admitted.part _ List.mem_cons_self
  | _ => exact admitted

end Admits

end Embedding

end Scriptlet
