/-
**Programs fault by design only.**

Every step of an evaluation relies on what it does not check: that a node has its children, that a
token can be read, that a value is there and has a type and a text.

* `Store.Reached`: the stores that programs lead to, run one after another on the root scope from
  the initial store, whatever became of each of them.
* `Value.Present`: a value that is there, as are all values in it.
* `Moment.Present`: no value is missing where one is used: bound, held in an array or a hash, given
  to a callee, or yielded by an expression.

Main statement: `programs_safe`. On every reached store a program is evaluated without a missing
value, ends in a fault only by a division by zero or beyond the nesting limit, and then its result
and all values bound on the root scope are rendered, wherever their texts have room. They do not
have room everywhere (`binding_without_text`).
-/
import Scriptlet.Proofs.Evaluation.Deep
import Scriptlet.Proofs.Evaluation.Step
import Scriptlet.Proofs.Value.Rendering

namespace Scriptlet

/-- The stores that programs lead to on the root scope. -/
inductive Store.Reached : Store → Prop
  | initial : Reached .initial
  | run {store : Store} (limit : Nat) (source : String) :
      Reached store → Reached (runWithin limit source Store.root store).2

/-- A value that is there, as are all values in it. -/
def Value.Present (value : Value) : Prop :=
  value.Throughout fun inner => inner ≠ .nothing

/-- No value is missing where one is used. -/
def Moment.Present (moment : Moment) (store : Store) : Prop :=
  store.Holds Value.Present ∧
    match moment with
    | .entered _ _ => True
    | .yielded tree value => value.Present ∨ value = .nothing ∧ tree.isExpression = false
    | .applied callee arguments => callee.Present ∧ ∀ argument ∈ arguments, argument.Present

/-- The faults that programs end in by design. -/
def Fault.ByDesign (fault : Fault) : Prop :=
  fault = .divisionByZero ∨ fault = .nestingTooDeep

namespace Value.Sound

/-- A value that programs may hold is there. -/
theorem present {value : Value} (sound : value.Sound) : value.Present :=
  sound.mono fun inner here absent => by
    subst absent
    exact here

theorem of_parts_eq_nil {value : Value} (here : value.IsSound) (simple : value.parts = []) :
    value.Sound :=
  Throughout.of_parts_eq_nil here simple

end Value.Sound

/-! ### The policy of safety -/

/-- Parts of programs may be evaluated on any scope, and sound values may be held. -/
def safety : Policy where
  good store := store.Holds Value.Sound
  moves _ _ := True
  faults := Fault.ByDesign
  refl _ := trivial
  trans _ _ := trivial
  admits _ _ tree := ∃ role, tree.Shaped Token.InRange role
  held _ value := value.Sound
  binds _ _ _ := True
  admits_moves _ admitted := admitted
  held_moves _ held := held
  binds_moves _ binds := binds
  bind sound _ held := ⟨sound.bind _ _ held, trivial⟩
  identify sound := ⟨sound, trivial⟩
  print _ sound := ⟨sound, trivial⟩
  enter sound held := ⟨sound.enclose _, trivial, ⟨.block, held.here⟩, fun _ => trivial⟩
  lookup sound found := sound.of_lookup? found
  operand := fun ⟨_, shaped⟩ member => shaped.operand member
  consumed := fun ⟨_, shaped⟩ member => Or.inl (shaped.consumed member).isExpression
  named _ _ := trivial
  literal _ _ _ := .of_parts_eq_nil trivial rfl
  function := fun _ ⟨_, shaped⟩ _ _ => .of_parts_eq_nil shaped.body rfl
  null := .of_parts_eq_nil trivial rfl
  boolean _ := .of_parts_eq_nil trivial rfl
  builtin _ := .of_parts_eq_nil trivial rfl
  string _ _ := .of_parts_eq_nil trivial rfl
  wrapped _ := .of_parts_eq_nil trivial rfl
  measured _ := .of_parts_eq_nil trivial rfl
  array _ _ each := .array trivial each
  hash _ _ each := .hash trivial each
  element held member := held.part _ member
  returned held := held.part _ List.mem_cons_self
  division := Or.inl rfl
  nesting := Or.inr rfl
  flaw := fun ⟨_, shaped⟩ flaw => by
    refine absurd flaw (shaped.flawless fun literal inRange integer => ?_)
    obtain ⟨number, read, -⟩ := inRange.read integer
    exact ⟨number, read⟩
  inspect held failed := by
    obtain ⟨text, written⟩ := held.inspect_ok
    rw [written] at failed
    cases failed

namespace safety

variable {store : Store} {tree : Tree} {value : Value}

/-- What is yielded is there, or the tree is no expression. -/
theorem present_of_yields (yielded : safety.Yields tree store value) :
    value.Present ∨ value = .nothing ∧ tree.isExpression = false := by
  cases yielded with
  | settled settled =>
    cases settled with
    | held sound => exact Or.inl sound.present
    | error => exact Or.inl (.of_parts_eq_nil (by simp) rfl)
  | returned _ _ sound =>
    exact Or.inl (.intro (by simp) (List.forall_mem_singleton.mpr sound.present))
  | nothing silent => exact Or.inr ⟨rfl, silent⟩

/-- What is yielded has a text, unless there is no value. -/
theorem rendered_of_yields (yielded : safety.Yields tree store value) :
    ∃ text, value.rendered = .ok text := by
  have shown : ∀ (value : Value) {text}, value.inspect = .ok text →
      ∃ text, value.rendered = .ok text := by
    intro value text written
    cases value with
    | nothing => cases written
    | _ => exact ⟨some text, by rw [Value.rendered, written]; rfl; simp⟩
  cases yielded with
  | settled settled =>
    cases settled with
    | held sound =>
      obtain ⟨text, written⟩ := sound.inspect_ok
      exact shown _ written
    | error => exact ⟨_, rfl⟩
  | returned identity _ sound =>
    obtain ⟨text, written⟩ := sound.inspect_ok
    exact shown (.returned identity _) (by rw [Value.inspect, written])
  | nothing => exact ⟨none, rfl⟩

/-- The moments that the policy allows lack no value. -/
theorem present_of_allows (moment : Moment) (store : Store)
    (allowed : safety.Allows moment store) : moment.Present store := by
  refine ⟨?_, ?_⟩
  · have sound : store.Holds Value.Sound := by cases moment <;> exact allowed.1
    exact sound.mono fun value => Value.Sound.present
  · cases moment with
    | entered => trivial
    | yielded => exact present_of_yields allowed.2
    | applied =>
      exact ⟨allowed.2.1.present, fun argument member => (allowed.2.2 argument member).present⟩

/-- The evaluation of a program on a store with sound values keeps to the policy. -/
theorem program_agree {source : String} {program : Tree} (accepted : parse source = .ok program)
    (limit : Nat) (sound : store.Holds Value.Sound) (alarm : Fault) :
    safety.toTerms.Agree (safety.Yields program) store
      (evaluateWatched Moment.Present alarm limit program Store.root)
      (evaluate limit program Store.root) :=
  Policy.evaluate_agree alarm present_of_allows limit sound ⟨.program, parse_shaped accepted⟩

end safety

/-! ### Programs one after another -/

/-- Values stay sound as a program is run. -/
theorem safety.run_sound {store : Store} (sound : store.Holds Value.Sound) (limit : Nat)
    (source : String) : (runWithin limit source Store.root store).2.Holds Value.Sound := by
  cases accepted : parse source with
  | error reason =>
    rw [runWithin, accepted]
    exact sound
  | ok program =>
    rw [runWithin_of_parse accepted]
    exact (safety.program_agree accepted limit sound .valueMissing).good

/-- **Values are sound on every reached store**, whatever became of the programs before. -/
theorem Store.Reached.sound {store : Store} (reached : store.Reached) :
    store.Holds Value.Sound := by
  induction reached with
  | initial => exact .initial
  | run limit source _ sound => exact safety.run_sound sound limit source

/-- All values bound on a scope of a store with sound values have a text. -/
theorem safety.rendered_of_bindings {store : Store} (sound : store.Holds Value.Sound)
    (scope : ScopeId) : ∀ binding ∈ store.bindings scope,
      ∃ text, binding.2.rendered = .ok text := by
  intro binding member
  cases found : store.scopes[scope]? with
  | none => simp [Store.bindings, found] at member
  | some here =>
    have bound : binding ∈ here.bindings := by simpa [Store.bindings, found] using member
    have yielded : safety.Yields (.node .program []) store binding.2 :=
      .settled (.held (sound scope here found binding bound))
    exact safety.rendered_of_yields yielded

/-- A program that is run where values are sound halts by design, or its result has a text. -/
theorem safety.run_settles {store : Store} (sound : store.Holds Value.Sound) {source : String}
    {program : Tree} (accepted : parse source = .ok program) (limit : Nat) :
    (∀ failure, (runWithin limit source Store.root store).1.result = .error failure →
      ∃ fault, failure = .halted fault ∧ fault.ByDesign) ∧
    ∀ value, (runWithin limit source Store.root store).1.result = .ok value →
      ∃ text, value.rendered = .ok text := by
  have kept := safety.program_agree accepted limit sound .valueMissing
  rw [runWithin_of_parse accepted limit Store.root store]
  obtain ⟨⟨result, after⟩, ended⟩ :
      ∃ outcome, (evaluate limit program Store.root).runFrom store = outcome := ⟨_, rfl⟩
  rw [ended]
  cases result with
  | error fault =>
    refine ⟨fun failure failed => ?_, fun value yielded => (by cases yielded)⟩
    cases failed
    exact ⟨fault, rfl, kept.faults fault (by rw [ended])⟩
  | ok result =>
    refine ⟨fun failure failed => (by cases failed), fun value yielded => ?_⟩
    cases yielded
    exact safety.rendered_of_yields (kept.yields result (by rw [ended]))

/-- **Programs fault by design only.** On every store that programs lead to, and for every limit, a
program is evaluated without a missing value; if it halts, then by a division by zero or beyond the
limit; and its result, if any, is rendered wherever there is room for its text, as are all values
that are then bound on the root scope. -/
theorem programs_safe {store : Store} (reached : store.Reached) {source : String} {program : Tree}
    (accepted : parse source = .ok program) (limit : Nat) :
    AlwaysEvaluating Moment.Present limit program Store.root store ∧
    (∀ failure, (runWithin limit source Store.root store).1.result = .error failure →
      ∃ fault, failure = .halted fault ∧ fault.ByDesign) ∧
    (∀ value, (runWithin limit source Store.root store).1.result = .ok value → value.Renders) ∧
    ∀ binding ∈ (runWithin limit source Store.root store).2.bindings Store.root,
      binding.2.Renders := by
  obtain ⟨halts, yields⟩ := safety.run_settles reached.sound accepted limit
  refine ⟨fun alarm => ?_, halts, fun value yielded => ?_, fun binding member => ?_⟩
  · exact (safety.program_agree accepted limit reached.sound alarm).same
  · exact .of_rendered (yields value yielded)
  · have sound := (Store.Reached.run limit source reached).sound
    exact .of_rendered (safety.rendered_of_bindings sound Store.root binding member)

/-- A program that divides by zero leaves what it has bound, and the next one may use it. -/
theorem programs_safe_after_halt :
    let source := "let held = [fn(x) \x7b x \x7d]; 1 / 0"
    let store := (runWithin 99 source Store.root .initial).2
    store.Reached ∧ ∃ program, parse "held[0](2)" = .ok program ∧
      AlwaysEvaluating Moment.Present 99 program Store.root store ∧
      (∀ value, (runWithin 99 "held[0](2)" Store.root store).1.result = .ok value →
        value.Renders) ∧
      ∀ binding ∈ (runWithin 99 "held[0](2)" Store.root store).2.bindings Store.root,
        binding.2.Renders := by
  intro source store
  have reached : store.Reached := .run 99 source .initial
  have accepted : ∃ program, parse "held[0](2)" = .ok program := ⟨_, rfl⟩
  obtain ⟨program, accepted⟩ := accepted
  obtain ⟨present, -, result, bindings⟩ := programs_safe reached accepted 99
  exact ⟨reached, program, accepted, present, result, bindings⟩

/-- A program without a fault may bind a function whose text has no room within the limit that
programs are run with. -/
theorem binding_without_text :
    ∃ program value, parse (Deep.binding 20000) = .ok program ∧
      (run (Deep.binding 20000) Store.root .initial).1.result = .ok .nothing ∧
      (run (Deep.binding 20000) Store.root .initial).2.bindings Store.root = [("f", value)] ∧
      value.renderedWithin nestingLimit = .error .nestingTooDeep := by
  have room : 0 < nestingLimit ∧ 3 ≤ nestingLimit ∧ nestingLimit ≤ 20000 := by decide
  obtain ⟨program, value, accepted, yielded, bound, deep⟩ := Deep.run_binding 20000 room.2.1
  have exceeds := Deep.exceeds_of_depth room.1 room.2.2 deep
  rw [run]
  exact ⟨program, value, accepted, yielded, bound, Value.renderedWithin_of_exceeds exceeds⟩

end Scriptlet
