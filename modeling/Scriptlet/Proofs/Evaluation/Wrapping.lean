/-
**Statements inside of a conditional or of a function.**

Statements may be run as a program, as the block of a conditional that is the only statement of a
program, or as the body of a function that a program makes and calls at once. A program, a block and
a call treat a returned operand, an error and the lack of a value each in its own way, and a call
has a scope of its own.

* `Tree.inConditional`, `Tree.inCall`: the program that runs statements inside of a conditional, and
  the one that runs them inside of a function.
* `Embedding.inside`: a run on an empty store, in a run on the scope of the call.

Main statement: `statements_wrapped`. All three print the same and end in the same fault or with
values seen as the same, with null for no value; the first two leave the same store, and the third
one binds nothing on the root scope.
-/
import Scriptlet.Proofs.Evaluation.Embedded
import Scriptlet.Proofs.Evaluation.Limit
import Scriptlet.Proofs.Evaluation.Safety

namespace Scriptlet

namespace Tree

/-- The program whose only statement is a conditional on a truth value with statements in its
block. -/
def inConditional (truth : Token) (statements : List Tree) : Tree :=
  .node .program [.node .expressionStatement
    [.node .conditional [.node .boolean [.leaf truth], .node .block statements]]]

/-- The program whose only statement calls a function without parameters that has statements for its
body. -/
def inCall (statements : List Tree) : Tree :=
  .node .program [.node .expressionStatement
    [.node .call [.node .function [.node .parameters [], .node .block statements],
      .node .arguments []]]]

end Tree

/-! ### What the three programs do -/

section Programs

variable (limit : Nat) (parts : List Tree) (scope : ScopeId)

/-- The conditional takes the block, and null for no value. -/
theorem evaluate_inConditional {truth : Token} (spelled : truth.text = "true") :
    evaluate (limit + 4) (.inConditional truth parts) scope =
      (do return (← Eval.statements (evaluate limit) scope .nothing parts).orNull.operand) := by
  have condition : evaluate (limit + 1) (.node .boolean [.leaf truth]) scope =
      pure (.boolean true) := by
    show (pure (.boolean (truth.text == "true")) : Eval Value) = _
    rw [spelled]
    rfl
  have chosen : Eval.conditional (evaluate (limit + 1)) scope
      [.node .boolean [.leaf truth], .node .block parts] =
        (do return (← Eval.statements (evaluate limit) scope .nothing parts).orNull) := by
    simp only [Eval.conditional, condition, pure_bind]
    rfl
  rw [Tree.inConditional, evaluate_expressing, evaluate, Eval.step, chosen, bind_assoc]
  simp only [pure_bind]

/-- The function and then the scope of its call are made, and the body is evaluated there. -/
theorem evaluate_inCall :
    evaluate (limit + 4) (.inCall parts) scope = (do
      let _ ← modifyGet Store.identify
      let inner ← modifyGet fun store => store.enclose (some scope)
      return (← Eval.statements (evaluate limit) inner .nothing parts).unwrap.operand) := by
  have made : evaluate (limit + 1) (.node .function [.node .parameters [], .node .block parts])
      scope = Eval.identified fun identity => .function identity [] (.node .block parts) scope :=
    rfl
  have applied : Eval.application (evaluate (limit + 1))
      (Eval.call (Value.inspectWithin (limit + 1)) (evaluate (limit + 1))) scope
      [.node .function [.node .parameters [], .node .block parts], .node .arguments []] = (do
        let _ ← modifyGet Store.identify
        let inner ← modifyGet fun store => store.enclose (some scope)
        return (← Eval.statements (evaluate limit) inner .nothing parts).unwrap) := by
    simp only [Eval.application, made, Eval.identified, bind_assoc, pure_bind]
    rfl
  rw [Tree.inCall, evaluate_expressing, evaluate, Eval.step, applied]
  simp only [bind_assoc, pure_bind]

end Programs

/-! ### The scope of the call -/

/-- The store when the function has been made and its call has been entered. -/
def Store.entered : Store :=
  (Store.initial.identify.2.enclose (some Store.root)).2

namespace Embedding

/-- A run that starts on an empty store, on the scope of a call within the root scope of another. -/
def inside : Embedding where
  scope id := id + 1
  identity number := number + 1
  around := some Store.root
  beside _ := []
  printed := []
  rising less := Nat.add_lt_add_right less 1
  distinct same := Nat.add_right_cancel same
  outside id same := Nat.succ_ne_zero id (Option.some.inj same).symm

/-- No name is hidden. -/
theorem visible_inside (name : String) : inside.Visible name := by
  intro id pair member
  cases member

theorem stands_inside : inside.Stands .initial .entered where
  scopes id := by
    cases id with
    | zero => rfl
    | succ id => simp [inside, Store.initial, Store.entered, Store.enclose, Store.identify]
  around id around := by
    obtain rfl := Option.some.inj around
    rfl
  nested found encloses := by
    rw [Store.eq_of_initial found] at encloses
    cases encloses
  admitted := .initial
  nextScope more := Nat.add_right_comm 1 more 1
  nextIdentity more := Nat.add_right_comm 0 more 1
  bare _ _ := rfl
  printed := rfl

end Embedding

/-! ### The same statements in each of them -/

/-- A returned operand is taken out once, wherever null stands for no value. -/
theorem safety.operand_eq {store : Store} {tree : Tree} {value : Value}
    (yielded : safety.Yields tree store value) :
    value.orNull.operand = value.operand.orNull ∧ value.unwrap.operand = value.operand.orNull := by
  have held : ∀ {value : Value}, value.Sound →
      value.orNull = value ∧ value.unwrap = value ∧ value.operand = value := by
    intro value sound
    have here := sound.here
    cases value with
    | nothing | returned | error => exact here.elim
    | _ => exact ⟨rfl, rfl, rfl⟩
  cases yielded with
  | settled settled =>
    cases settled with
    | held sound =>
      obtain ⟨present, called, unreturned⟩ := held sound
      simp only [present, called, unreturned, and_self]
    | error => exact ⟨rfl, rfl⟩
  | returned identity _ sound =>
    obtain ⟨present, -, unreturned⟩ := held sound
    exact ⟨present.symm, unreturned.trans present.symm⟩
  | nothing => exact ⟨rfl, rfl⟩

section Statements

variable {statements : List Tree}
  (shaped : ∀ part ∈ statements, part.Shaped Token.InRange .statement) (limit : Nat)

include shaped

/-- What statements of a program yield on the empty store, where an operand may be on its way. -/
theorem operand_of_statements (value : Value)
    (yielded : ((Eval.statements (evaluate limit) Store.root .nothing statements).runFrom
      .initial).1 = .ok value) :
    value.orNull.operand = value.operand.orNull ∧ value.unwrap.operand = value.operand.orNull := by
  have agree : safety.toTerms.Agree (safety.Yields (.node .block statements)) .initial
      (evaluateWatched Moment.Present .valueMissing (limit + 1) (.node .block statements)
        Store.root) (evaluate (limit + 1) (.node .block statements) Store.root) :=
    Policy.evaluate_agree _ safety.present_of_allows _ .initial ⟨.block, .block shaped⟩
  exact safety.operand_eq (agree.yields value yielded)

/-- **On the scope of the call, statements do what they do on the root scope.** -/
theorem statements_inside :
    Embedding.inside.Matches Embedding.inside.Sends .initial .entered
      (Eval.statements (evaluate limit) Store.root .nothing statements)
      (Eval.statements (evaluate limit) 1 .nothing statements) := by
  have nothing : Embedding.inside.Admits Store.initial.scopes.size .nothing :=
    .of_parts_eq_nil trivial rfl
  have reads : ∀ part ∈ statements, part.Shaped Embedding.inside.Reads .statement :=
    fun part member => (shaped part member).of_forall_tokens fun token _ _ _ =>
      Embedding.visible_inside token.text
  have inside : Store.root < Store.initial.scopes.size := by decide
  exact Embedding.statements_matches (Embedding.evaluate_matches limit) Embedding.stands_inside
    inside nothing reads

end Statements

/-- A program that calls a function runs its body on the scope of the call. -/
theorem runFrom_inCall (limit : Nat) (statements : List Tree) :
    (evaluate (limit + 4) (.inCall statements) Store.root).runFrom .initial =
      (((Eval.statements (evaluate limit) 1 .nothing statements).runFrom .entered).1.map
          (fun value => value.unwrap.operand),
        ((Eval.statements (evaluate limit) 1 .nothing statements).runFrom .entered).2) := by
  rw [evaluate_inCall, ← Eval.runFrom_return]
  rfl

/-! ### Main statement -/

/-- **Statements run alike** as a program, inside of a conditional and inside of a function. For all
statements of a program, each of the three evaluated on an empty store within a limit of its own:
unless one of them ends beyond its limit, the conditional ends with the same value or fault, null
for no value, in the same store; the function ends with a value seen as the same or with the same
fault, has printed the same, and leaves nothing bound on the root scope. -/
theorem statements_wrapped {statements : List Tree}
    (shaped : ∀ part ∈ statements, part.Shaped Token.InRange .statement) {truth : Token}
    (spelled : truth.text = "true") (first second third : Nat) :
    let plain := (evaluate first (.node .program statements) Store.root).runFrom .initial
    let guarded := (evaluate second (.inConditional truth statements) Store.root).runFrom .initial
    let called := (evaluate third (.inCall statements) Store.root).runFrom .initial
    plain.1 ≠ .error .nestingTooDeep → guarded.1 ≠ .error .nestingTooDeep →
      called.1 ≠ .error .nestingTooDeep →
      guarded = (plain.1.map Value.orNull, plain.2) ∧
        called.1.map Value.seen = plain.1.map (fun value => value.orNull.seen) ∧
        called.2.printed = plain.2.printed ∧ called.2.bindings Store.root = [] := by
  intro plain guarded called ended ended' ended''
  -- within limits that are large enough, all three evaluate the statements within one and the same
  obtain ⟨limit, large⟩ : ∃ limit, first + second + third = limit := ⟨_, rfl⟩
  have plainRun : (evaluate (limit + 1) _ Store.root).runFrom .initial = plain :=
    (evaluate_extends (by omega) _ _).runFrom_eq ended
  have guardedRun : (evaluate (limit + 4) _ Store.root).runFrom .initial = guarded :=
    (evaluate_extends (by omega) _ _).runFrom_eq ended'
  have calledRun : (evaluate (limit + 4) _ Store.root).runFrom .initial = called :=
    (evaluate_extends (by omega) _ _).runFrom_eq ended''
  rw [evaluate_program, Eval.runFrom_return] at plainRun
  rw [evaluate_inConditional limit statements Store.root spelled, Eval.runFrom_return] at guardedRun
  rw [runFrom_inCall] at calledRun
  rw [← plainRun, ← guardedRun, ← calledRun]
  obtain ⟨results, stands, -⟩ := statements_inside shaped limit
  have operand := operand_of_statements shaped limit
  obtain ⟨⟨result, after⟩, run⟩ : ∃ outcome, (Eval.statements (evaluate limit) Store.root .nothing
    statements).runFrom .initial = outcome := ⟨_, rfl⟩
  obtain ⟨⟨result', after'⟩, run'⟩ : ∃ outcome, (Eval.statements (evaluate limit) 1 .nothing
    statements).runFrom .entered = outcome := ⟨_, rfl⟩
  simp only [run, run'] at results stands operand ⊢
  refine ⟨?_, ?_, ?_, ?_⟩
  · cases result with
    | ok value => simp only [Except.map, (operand value rfl).1]
    | error fault => rfl
  · cases results with
    | @value value _ sent =>
      obtain ⟨rfl, -⟩ := sent
      simp only [Except.map, Embedding.unwrap_value, Embedding.operand_value,
        (operand value rfl).2, Embedding.seen_value]
    | fault fault => rfl
  · rw [← Array.toList_inj, stands.printed]
    rfl
  · have bare := stands.around Store.root rfl
    simp [Store.bindings, bare]

/-- A function made, printed and called for what is returned: where it was made does not show. -/
theorem statements_wrapped_returning :
    let truth : Token := ⟨.trueWord, "true", .start, 0⟩
    let statements := [
      Build.binding "f"
        (Build.function ["x"] (Build.block [Build.returning (Build.identifier "x")])),
      Build.statement (Build.call (Build.identifier "puts") [Build.identifier "f"]),
      Build.returning (Build.call (Build.identifier "f") [Build.boolean true])]
    let plain := (evaluate 12 (.node .program statements) Store.root).runFrom .initial
    let guarded := (evaluate 15 (.inConditional truth statements) Store.root).runFrom .initial
    let called := (evaluate 15 (.inCall statements) Store.root).runFrom .initial
    (∀ part ∈ statements, part.Shaped Token.InRange .statement) ∧ truth.text = "true" ∧
      plain.1 ≠ .error .nestingTooDeep ∧ guarded.1 ≠ .error .nestingTooDeep ∧
      called.1 ≠ .error .nestingTooDeep ∧
      guarded.2 = plain.2 ∧ called.2.printed = #["fn(x) \x7b\nreturn x;\n\x7d"] ∧
      called.2.bindings Store.root = [] := by
  intro truth statements plain guarded called
  have named : ∀ name, (Build.identifier name).Shaped Token.InRange .expression :=
    fun name => .identifier rfl rfl
  have made : (Build.function ["x"] (Build.block [Build.returning (Build.identifier "x")])).Shaped
      Token.InRange .expression :=
    @Tree.Shaped.function _ [⟨.identifier, "x", default, 0⟩] _
      (List.forall_mem_singleton.mpr ⟨rfl, rfl⟩)
      (.block (List.forall_mem_singleton.mpr (.returning (named "x"))))
  have shaped : ∀ part ∈ statements, part.Shaped Token.InRange .statement := by
    refine List.forall_mem_cons.mpr ⟨.binding rfl rfl made, List.forall_mem_cons.mpr ⟨?_,
      List.forall_mem_singleton.mpr ?_⟩⟩
    · exact .expressing (.call (named "puts") (List.forall_mem_singleton.mpr (named "f")))
    · exact .returning (.call (named "f") (List.forall_mem_singleton.mpr
        (.boolean (Or.inl rfl) rfl)))
  have ends : ∀ result : Except Fault Value, result = .ok (.boolean true) →
      result ≠ .error .nestingTooDeep := by
    rintro _ rfl
    simp
  have ended := ends plain.1 rfl
  have ended' := ends guarded.1 rfl
  have ended'' := ends called.1 rfl
  obtain ⟨same, -, printed, bare⟩ := statements_wrapped shaped rfl 12 15 15 ended ended' ended''
  exact ⟨shaped, rfl, ended, ended', ended'', congrArg Prod.snd same, printed, bare⟩

end Scriptlet
