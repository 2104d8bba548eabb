/-
**Data come back from their text.**

Main statements: the literal of data yields data that are alike but for identities
(`Value.Data.restored`), by induction on data; and `data_restored`, what is printed of data is read and
evaluated to such data, wherever the limit allows for it.
-/
import Scriptlet.Proofs.Evaluation.Blockless
import Scriptlet.Proofs.Evaluation.HashLiteral
import Scriptlet.Proofs.Evaluation.Steady
import Scriptlet.Proofs.Reader.Inspected

namespace Scriptlet

namespace Value

/-! ### Pairs in turn -/

/-- Keys and values in turn. -/
def inTurn (pairs : List (Value × Value)) : List Value :=
  pairs.flatMap fun pair => [pair.1, pair.2]

/-- Values in turn that are alike but for identities are pairs that are. -/
theorem anonymousPairs_paired {pairs : List (Value × Value)} {values : List Value}
    (alike : values.map anonymous = (inTurn pairs).map anonymous) :
    anonymousPairs (paired values) = anonymousPairs pairs := by
  induction pairs generalizing values with
  | nil =>
    obtain rfl : values = [] := by simpa [inTurn] using alike
    rfl
  | cons pair rest ih =>
    obtain ⟨key, values, rfl, here, alike⟩ := List.map_eq_cons_iff.mp alike
    obtain ⟨value, values, rfl, here', alike⟩ := List.map_eq_cons_iff.mp alike
    rw [paired, anonymousPairs, anonymousPairs, here, here', ih alike]

/-- Then the keys have the same contents. -/
theorem contents_of_anonymousPairs {pairs others : List (Value × Value)}
    (alike : anonymousPairs pairs = anonymousPairs others) :
    (pairs.map fun pair => pair.1.content?) = others.map fun pair => pair.1.content? := by
  have contents : ∀ pairs : List (Value × Value), (pairs.map fun pair => pair.1.content?) =
      (anonymousPairs pairs).map fun pair => pair.1.content? := by
    intro pairs
    simp [anonymousPairs_eq_map]
  rw [contents pairs, alike, ← contents others]

/-- What is known of the content of a key of data. -/
theorem IsPlainKey.content {value : Value} (plain : value.IsPlainKey) :
    ∃ content, value.content? = some content ∧ ∀ text, content ≠ .string text := by
  cases value with
  | integer number => exact ⟨_, rfl, fun text same => by cases same⟩
  | boolean truth => exact ⟨_, rfl, fun text same => by cases same⟩
  | _ => exact plain.elim

/-- Where the keys are those of data, they are keys. -/
theorem keyed_of_alike {pairs : List (Value × Value)} {values : List Value}
    (plain : ∀ pair ∈ pairs, pair.1.IsPlainKey)
    (alike : values.map anonymous = (inTurn pairs).map anonymous) : Layer.Keyed values := by
  induction pairs generalizing values with
  | nil =>
    obtain rfl : values = [] := by simpa [inTurn] using alike
    trivial
  | cons pair rest ih =>
    obtain ⟨key, values, rfl, here, alike⟩ := List.map_eq_cons_iff.mp alike
    obtain ⟨value, values, rfl, -, alike⟩ := List.map_eq_cons_iff.mp alike
    obtain ⟨isPlain, others⟩ := List.forall_mem_cons.mp plain
    obtain ⟨content, held, -⟩ := isPlain.content
    have same : key.content? = some content := by
      rw [← content?_anonymous, here, content?_anonymous, held]
    exact ⟨by rw [key?_eq, same]; rfl, ih others alike⟩

/-- **Different integers and truth values are all kept as keys.** -/
theorem collect_of_plainKeys {pairs : List (Value × Value)}
    (plain : ∀ pair ∈ pairs, ∃ content, pair.1.content? = some content ∧
      ∀ text, content ≠ .string text)
    (distinct : (pairs.map fun pair => pair.1.content?).Nodup) : collect pairs = pairs := by
  refine (collect_eq_iff pairs).mpr ((nodup_keysOf_iff distinct).mpr ?_)
  intro first member _ _ text _ here
  obtain ⟨content, held, noString⟩ := plain first member
  exact absurd (Option.some.inj (held.symm.trans here)) (noString text)

/-! ### Literals -/

variable {value : Value} {scope : ScopeId} {limit : Nat}

/-- The numeral of an integer yields the integer. -/
theorem steady_numeral {number : Int} (least : -Number.greatest ≤ number)
    (most : number ≤ Number.greatest) {store : Store} :
    (numeral number).Steady scope store (.integer number) := by
  have digits : ∀ {number : Nat}, (number : Int) ≤ Number.greatest →
      (Build.integer number).Steady scope store (.integer number) :=
    fun fits => .integer (Number.read_repr fits)
  cases number with
  | ofNat number =>
    show (numeral (number : Int)).Steady scope store (.integer number)
    rw [numeral_ofNat]
    exact digits most
  | negSucc number =>
    rw [numeral_negSucc]
    have fits : Number.Fits (.negSucc number) := by
      constructor
      · unfold Number.least
        unfold Number.greatest at least
        omega
      · exact most
    refine .unary (digits (fits_of_negSucc least)) rfl ?_
    show (Except.ok (Value.integer (Number.wrap (.negSucc number))), store) = _
    rw [Number.wrap_of_mem fits]

/-- Trees that yield what is alike but for identities, and no signals, are evaluated calmly in turn. -/
theorem calmly_literals {values : List Value}
    (each : ∀ value ∈ values, value.isSignal = false ∧ ∀ store, ∃ result after,
      (evaluate limit value.literal scope).runFrom store = (.ok result, after) ∧
        result.anonymous = value.anonymous) (store : Store) :
    ∃ results after, Eval.Calmly (evaluate limit) scope (values.map literal) store results after ∧
      results.map anonymous = values.map anonymous := by
  induction values generalizing store with
  | nil => exact ⟨[], store, .nil, rfl⟩
  | cons value rest ih =>
    obtain ⟨⟨calm, yields⟩, others⟩ := List.forall_mem_cons.mp each
    obtain ⟨result, middle, ran, alike⟩ := yields store
    obtain ⟨results, after, calmly, all⟩ := ih others middle
    have calm' : result.isSignal = false := by
      rw [← isSignal_anonymous, alike, isSignal_anonymous, calm]
    exact ⟨result :: results, after, .cons ran calm' calmly, by
      rw [List.map_cons, List.map_cons, alike, all]⟩

/-- The literal of a hash is that of its keys and values. -/
theorem literal_hash (identity : Nat) (pairs : List (Value × Value)) :
    (Value.hash identity pairs).literal =
      Layer.hash (pairs.map fun pair => (pair.1.literal, pair.2.literal)) := by
  rw [literal, literalPairs_eq_map, Layer.hash, List.map_map]
  rfl

theorem both_literals (pairs : List (Value × Value)) :
    Layer.both (pairs.map fun pair => (pair.1.literal, pair.2.literal)) =
      (inTurn pairs).map literal := by
  simp [Layer.both, inTurn, List.flatMap_map, List.map_flatMap]

/-- What stands in a hash is not nested as deep as it is. -/
theorem height_inTurn {identity : Nat} {pairs : List (Value × Value)}
    (high : (Value.hash identity pairs).literal.height ≤ limit + 1) :
    ∀ part ∈ inTurn pairs, part.literal.height ≤ limit := by
  intro part member
  obtain ⟨pair, among, which⟩ := List.mem_flatMap.mp member
  have inside : part.literal ∈ [pair.1.literal, pair.2.literal] := by
    simpa using List.mem_map_of_mem which
  have tree : (.node .pair [pair.1.literal, pair.2.literal] : Tree) ∈ literalPairs pairs := by
    rw [literalPairs_eq_map]
    exact List.mem_map_of_mem among
  have within := Tree.height_le_heightAll inside
  have whole := Tree.height_le_heightAll tree
  rw [literal, Tree.height] at high
  rw [Tree.height] at whole
  omega

namespace Data

/-- **The literal of data yields data that are alike but for identities.** -/
theorem restored (data : value.Data) (high : value.literal.height ≤ limit) (store : Store) :
    ∃ result after, (evaluate limit value.literal scope).runFrom store = (.ok result, after) ∧
      result.anonymous = value.anonymous := by
  induction data generalizing limit store with
  | @integer number least most =>
    exact ⟨_, store, (steady_numeral least most).enough high, rfl⟩
  | boolean truth =>
    cases limit with
    | zero => cases truth <;> cases high
    | succ limit => cases truth <;> exact ⟨_, store, rfl, rfl⟩
  | @array identity elements each ih =>
    rw [literal, literals_eq_map] at high ⊢
    cases limit with
    | zero => cases high
    | succ limit =>
      have inner : ∀ element ∈ elements, element.literal.height ≤ limit := fun element member =>
        Nat.le_trans (Tree.height_le_heightAll (List.mem_map_of_mem member))
          (Nat.le_of_succ_le_succ high)
      obtain ⟨results, after, calmly, alike⟩ := @calmly_literals scope limit elements
        (fun element member => ⟨(each element member).calm, ih element member (inner element member)⟩)
        store
      refine ⟨.array after.identities results, after.identify.2, ?_, ?_⟩
      · exact Eval.runFrom_bind_of_ok (Eval.runFrom_values_calmly calmly) _
      · rw [anonymous, anonymous, anonymousAll_eq_map, anonymousAll_eq_map, alike]
  | @hash identity pairs plain keys values distinct ihKeys ihValues =>
    cases limit with
    | zero => exact absurd high (by simp [literal, Tree.height])
    | succ limit =>
      have inner := height_inTurn high
      have each : ∀ part ∈ inTurn pairs, part.isSignal = false ∧ ∀ store, ∃ result after,
          (evaluate limit part.literal scope).runFrom store = (.ok result, after) ∧
            result.anonymous = part.anonymous := by
        intro part member
        have low := inner part member
        obtain ⟨pair, among, which⟩ := List.mem_flatMap.mp member
        rcases List.mem_cons.mp which with rfl | which
        · exact ⟨(keys pair among).calm, ihKeys pair among low⟩
        · obtain rfl := List.mem_singleton.mp which
          exact ⟨(values pair among).calm, ihValues pair among low⟩
      obtain ⟨results, after, calmly, alike⟩ := calmly_literals each store
      rw [← both_literals] at calmly
      have same := anonymousPairs_paired alike
      have contents := contents_of_anonymousPairs same
      have plain' : ∀ pair ∈ paired results, ∃ content, pair.1.content? = some content ∧
          ∀ text, content ≠ .string text := by
        intro pair member
        have among : pair.1.content? ∈ pairs.map fun pair => pair.1.content? :=
          contents ▸ List.mem_map_of_mem member
        obtain ⟨other, inside, equal⟩ := List.mem_map.mp among
        rw [← equal]
        exact (plain other inside).content
      have all : collect (paired results) = paired results :=
        collect_of_plainKeys plain' (by rw [contents]; exact distinct)
      have ran := (evaluatesJust_hash calmly (keyed_of_alike plain alike)).ran
      rw [literal_hash]
      refine ⟨_, _, ran, ?_⟩
      rw [all, anonymous, anonymous, same]

end Data

end Value

/-- **Data come back from their text.** The text of data is a program; wherever it is run, it yields
data that are alike but for identities, and so have the same text, unless their literal is nested too
deep for the limit. -/
theorem data_restored {value : Value} (data : value.Data) :
    ∃ text, value.inspect = .ok text ∧ ∃ program, parse text = .ok program ∧
      ∀ limit scope store,
        limit < value.literal.height + 2 ∧
          (runWithin limit text scope store).1.result = .error (.halted .nestingTooDeep) ∨
        ∃ result, (runWithin limit text scope store).1.result = .ok result ∧
          result.anonymous = value.anonymous ∧ result.inspect = .ok text := by
  obtain ⟨text, program, inspected, parsed, same⟩ := data.parse_inspect
  refine ⟨text, inspected, program, parsed, fun limit scope store => ?_⟩
  have blockless : (Build.program [Build.statement value.literal]).Blockless .program :=
    .closing (fun _ none => absurd none List.not_mem_nil) data.blockless
  have enough : ∀ {limit}, value.literal.height + 2 ≤ limit → ∃ result,
      ((evaluate limit program scope).runFrom store).1 = .ok result ∧
        result.anonymous = value.anonymous := by
    intro limit high
    obtain ⟨more, rfl⟩ := Nat.exists_eq_add_of_le high
    obtain ⟨result, after, ran, alike⟩ :=
      @Value.Data.restored _ scope _ data (Nat.le_add_right value.literal.height more) store
    have calm : result.isSignal = false := by
      rw [← Value.isSignal_anonymous, alike, Value.isSignal_anonymous, data.calm]
    have whole : result.operand = result := by
      cases result <;> first | rfl | cases calm
    refine ⟨result, ?_, alike⟩
    rw [evaluate_of_blockless blockless same, Nat.add_right_comm]
    show ((evaluate (_ + 2) (.node .program [.node .expressionStatement [_]]) scope).runFrom _).1 = _
    rw [evaluate_expressing, Eval.runFrom_return, ran]
    exact congrArg Except.ok whole
  have yields : ∀ {outcome : Except Fault Value}, (∃ result, outcome = .ok result ∧
      result.anonymous = value.anonymous) → ∃ result, outcome.mapError Failure.halted = .ok result ∧
        result.anonymous = value.anonymous ∧ result.inspect = .ok text := by
    rintro _ ⟨result, rfl, alike⟩
    refine ⟨result, rfl, alike, ?_⟩
    rw [← Value.inspect_anonymous, alike, Value.inspect_anonymous, inspected]
  rw [runWithin_of_parse parsed]
  by_cases high : value.literal.height + 2 ≤ limit
  · exact Or.inr (yields (enough high))
  · have low := Nat.lt_of_not_le high
    rcases (evaluate_extends (Nat.le_of_lt low) program scope).ends store with ran | ⟨deep, -⟩
    · exact Or.inr (yields (ran ▸ enough (Nat.le_refl _)))
    · exact Or.inl ⟨low, congrArg (Except.mapError Failure.halted) deep⟩

/-- An array with a negative number, and a hash with keys of both types, in it. -/
theorem data_restored_nested :
    let pairs : List (Value × Value) := [(.integer 1, .array 4 [.boolean true]),
      (.boolean true, .integer Number.greatest), (.integer (-2), .hash 7 [])]
    let value : Value := .array 9 [.integer (-5), .hash 2 pairs]
    let text := "[-5, \x7b1: [true], true: 9223372036854775807, -2: \x7b\x7d\x7d]"
    value.Data ∧ ∃ result, (runWithin 9 text Store.root .initial).1.result = .ok result ∧
      result.anonymous = value.anonymous ∧ result.inspect = .ok text := by
  intro pairs value text
  have number : ∀ number : Int, -Number.greatest ≤ number ∧ number ≤ Number.greatest →
      (Value.integer number).Data := fun _ bounds => .integer bounds.1 bounds.2
  have keys : ∀ pair ∈ pairs, pair.1.IsPlainKey ∧ pair.1.Data := by
    simp only [pairs, List.forall_mem_cons]
    exact ⟨⟨trivial, number 1 (by decide)⟩, ⟨trivial, .boolean true⟩,
      ⟨trivial, number (-2) (by decide)⟩, List.forall_mem_nil _⟩
  have values : ∀ pair ∈ pairs, pair.2.Data := by
    simp only [pairs, List.forall_mem_cons]
    exact ⟨.array (List.forall_mem_singleton.mpr (.boolean true)), number _ (by decide),
      .hash (List.forall_mem_nil _) (List.forall_mem_nil _) (List.forall_mem_nil _) (by decide),
      List.forall_mem_nil _⟩
  have distinct : (pairs.map fun pair => pair.1.content?).Nodup := by
    decide
  have data : value.Data := .array (List.forall_mem_cons.mpr ⟨number (-5) (by decide),
    List.forall_mem_singleton.mpr (.hash (fun pair member => (keys pair member).1)
      (fun pair member => (keys pair member).2) values distinct)⟩)
  obtain ⟨written, inspected, program, -, restored⟩ := data_restored data
  have rendered : value.inspect = .ok text := rfl
  obtain rfl : text = written := Except.ok.inj (rendered.symm.trans inspected)
  rcases restored 9 Store.root .initial with ⟨low, -⟩ | restored
  · exact absurd low (by decide)
  · exact ⟨data, restored⟩

end Scriptlet
