/-
**Integers stay within 64 bits.**

An integer enters by a literal, whose range the reader checks, by an operator, which wraps, or by
the length of a string or an array. What is bound, held in arrays and hashes, returned and given to
callees comes from there.

* `Value.InRange`: every integer in a value, however deep, is of 64 bits.
* `Moment.InRange`: so is every integer that is bound on any scope, yielded, or given to a callee.
* `Moment.Measured`: a length that is asked for is of 64 bits.

Main statement: `integers_in_range`. Whatever sources are run in turn from an empty store, where
every length that is asked for is of 64 bits, all integers are at every moment, and after a fault.
-/
import Scriptlet.Proofs.Evaluation.Accounted
import Scriptlet.Proofs.Reader.Accepts

namespace Scriptlet

/-- A value that is an integer is one of 64 bits. -/
def Value.FitsItself : Value → Prop
  | integer number => Number.Fits number
  | _ => True

/-- Every integer in a value is of 64 bits. -/
def Value.InRange (value : Value) : Prop :=
  value.Throughout Value.FitsItself

/-- Every integer that is bound, yielded or given to a callee is of 64 bits. -/
def Moment.InRange (moment : Moment) (store : Store) : Prop :=
  store.Holds Value.InRange ∧
    match moment with
    | .entered _ _ => True
    | .yielded _ value => value.InRange
    | .applied callee arguments => callee.InRange ∧ ∀ argument ∈ arguments, argument.InRange

/-- A length that is asked for is of 64 bits. -/
def Moment.Measured (moment : Moment) (_ : Store) : Prop :=
  match moment with
  | .applied (.builtin .len) [value] =>
    ∀ length : Nat, value.length? = some length → Number.Fits length
  | _ => True

/-- An integer that is written in digits, in the range of the reader, is of 64 bits. -/
theorem Token.Genuine.fits {literal : Token} (genuine : literal.Genuine)
    (integer : literal.kind = .integer) {number : Int}
    (read : Number.read literal.text = .ok number) : Number.Fits number := by
  obtain ⟨some_, few, each, fits⟩ : IsNumberText literal.text.toList := by
    simpa [Token.Genuine, integer] using genuine
  rw [Number.read_of_digits some_ each, if_neg (Nat.not_lt.mpr few)] at read
  cases read
  exact ⟨Int.le_trans (by decide) (Int.natCast_nonneg _), fits⟩

/-- Programs hold integers of 64 bits, and functions whose literals are such integers. -/
def ranged : Account where
  Known := Unit
  later _ _ := True
  counts _ _ := True
  holds _ value := value.Throughout fun inner => inner.FitsItself ∧ inner.Formed Token.Genuine
  token := Token.Genuine
  assumes := Moment.Measured
  refl _ := trivial
  trans _ _ := trivial
  holds_later _ held := held
  part held member := held.part _ member
  formed held := held.here.2
  null := .of_parts_eq_nil ⟨trivial, trivial⟩ rfl
  boolean _ := .of_parts_eq_nil ⟨trivial, trivial⟩ rfl
  builtin _ := .of_parts_eq_nil ⟨trivial, trivial⟩ rfl
  wrapped number := .of_parts_eq_nil ⟨Number.wrap_mem number, trivial⟩ rfl
  literal genuine integer read := .of_parts_eq_nil ⟨genuine.fits integer read, trivial⟩ rfl
  measured assumed found := .of_parts_eq_nil ⟨assumed _ found, trivial⟩ rfl
  make := fun {_ _ value} _ own held formed => by
    refine ⟨(), trivial, trivial, .intro ⟨?_, formed⟩ held⟩
    cases value with
    | integer => cases own
    | _ => trivial

namespace ranged

variable {value : Value}

theorem inRange (held : ranged.holds () value) : value.InRange :=
  held.mono fun _ both => both.1

/-- What a tree yields is in range; the lack of a value is, too. -/
theorem inRange_of_settles {role : Role} (settles : ranged.Settles role () value) :
    value.InRange := by
  rcases settles with held | ⟨rfl, -⟩
  · exact inRange held
  · exact .of_parts_eq_nil trivial rfl

/-- The moments that are accounted for are in range. -/
theorem inRange_of_allows {moment : Moment} {store : Store}
    (allowed : ranged.Allows () moment store) : moment.InRange store := by
  cases allowed with
  | entered _ _ good => exact ⟨good.holds.mono fun _ => inRange, trivial⟩
  | yielded role good yields =>
    exact ⟨good.holds.mono fun _ => inRange, inRange_of_settles yields.1⟩
  | applied good callee held =>
    exact ⟨good.holds.mono fun _ => inRange, inRange callee,
      fun argument member => inRange (held argument member)⟩

end ranged

/-- The program of a text has tokens as they stand in texts. -/
theorem parse_genuine {source : String} {program : Tree} (parsed : parse source = .ok program) :
    program.Shaped Token.Genuine .program := by
  obtain ⟨lexemes, accepts⟩ := Reader.accepts_of_parse parsed
  exact accepts.shaped .initial

/-- **Integers stay within 64 bits.** Let sources be run in turn on the root scope of an empty
store, within any limit, and let every length that is asked for be of 64 bits. At every moment of
every program among them, all integers that are bound on any scope, yielded, or given to a callee
are of 64 bits, however deep they lie in arrays, hashes and returned operands. So are those in its
result and those that are bound when it has ended, also by a fault. -/
theorem integers_in_range (limit : Nat) (sources : List String)
    (measured : ∀ program store, RunsAmong limit .initial sources program store →
      AlwaysEvaluating Moment.Measured limit program Store.root store) :
    ∀ program store, RunsAmong limit .initial sources program store →
      AlwaysEvaluating Moment.InRange limit program Store.root store ∧
      ((evaluate limit program Store.root).runFrom store).2.Holds Value.InRange ∧
      ∀ value, ((evaluate limit program Store.root).runFrom store).1 = .ok value →
        value.InRange := by
  have good : ranged.Good () Store.initial := ⟨trivial, .initial⟩
  obtain ⟨_, -, each⟩ := ranged.kept_among (fun _ => Moment.InRange)
    (fun _ => ranged.inRange_of_allows) parse_genuine limit good sources measured
  intro program store runs
  obtain ⟨always, _, -, goodAfter, settles⟩ := each program store runs
  exact ⟨always, goodAfter.holds.mono fun _ => ranged.inRange,
    fun value result => ranged.inRange_of_settles (settles value result)⟩

/-- The least integer has no literal; a difference below it wraps, and what is bound is in range. -/
theorem integers_in_range_wrapping :
    let source := "let n = -9223372036854775807 - 2;"
    (∀ program store, RunsAmong 6 .initial [source] program store →
      AlwaysEvaluating Moment.Measured 6 program Store.root store) ∧
    ∃ program, RunsAmong 6 .initial [source] program .initial ∧
      AlwaysEvaluating Moment.InRange 6 program Store.root .initial ∧
      (((evaluate 6 program Store.root).runFrom .initial).2.bindings Store.root).map
        (fun binding => binding.2.inspect.toOption) = [some "9223372036854775807"] := by
  intro source
  let literal (digits : String) (place : Position) (stop : Nat) : Tree :=
    .node .integer [.leaf ⟨.integer, digits, place, stop⟩]
  let program : Tree := .node .program [.node .letStatement [.leaf ⟨.identifier, "n", ⟨1, 5, 4⟩, 5⟩,
    .node .binary [.node .unary [.leaf ⟨.minus, "-", ⟨1, 9, 8⟩, 9⟩,
      literal "9223372036854775807" ⟨1, 10, 9⟩ 28], .leaf ⟨.minus, "-", ⟨1, 30, 29⟩, 30⟩,
      literal "2" ⟨1, 32, 31⟩ 32]]]
  have accepted : parse source = .ok program := by
    simp only [source, program, literal]
    rfl
  have measured : ∀ other store, RunsAmong 6 .initial [source] other store →
      AlwaysEvaluating Moment.Measured 6 other Store.root store := by
    intro other store runs alarm
    cases runs with
    | here parsed =>
      cases accepted.symm.trans parsed
      -- nothing is applied, so there is no moment to stop at
      have enters : ∀ tree scope,
          Eval.watch Moment.Measured alarm (.entered tree scope) = pure () :=
        fun _ _ => Eval.watch_of_forall fun _ => trivial
      have yields : ∀ tree value,
          Eval.watch Moment.Measured alarm (.yielded tree value) = pure () :=
        fun _ _ => Eval.watch_of_forall fun _ => trivial
      simp only [program, literal, evaluateWatched, enters, yields, pure_bind, bind_pure, Eval.step,
        Eval.statements, Eval.binding, Eval.binary, Eval.unary]
      rfl
    | later runs => cases runs
  have runs : RunsAmong 6 .initial [source] program .initial := .here accepted
  have bound : (((evaluate 6 program Store.root).runFrom .initial).2.bindings Store.root).map
      (fun binding => binding.2.inspect.toOption) = [some "9223372036854775807"] := by
    simp only [program, literal]
    decide +kernel
  exact ⟨measured, program, runs, (integers_in_range 6 [source] measured program .initial runs).1,
    bound⟩

end Scriptlet
