/-
**A program split over submissions.**

Texts may be run one after another on one root scope, or all at once, a line for each. A program
ends with its first statement that yields a signal or a fault, and a session goes on with the next
text.

* `submitted`: the store after texts have been run one after another.
* `Eval.Interrupted`: evaluated in turn, some of the statements yields a signal or ends in a fault;
  `Disturbed`, `Undisturbed`: this of a text and of none of the texts in a session.
* `Store.SeenAlike`: the same has been printed, and the root scope binds the same names to values
  seen as the same.

Main statement: `submissions_joined`. Closed texts are read together as one program of all their
statements (`parse_joined`), places aside, which do not matter (`evaluate_unplaced`); and statements
do after others what they do by themselves (`Eval.statements_append`).
-/
import Scriptlet.Proofs.Evaluation.Safety
import Scriptlet.Proofs.Evaluation.Unplaced
import Scriptlet.Proofs.Evaluation.UnusedName
import Scriptlet.Proofs.Reader.Joined
import Scriptlet.Tree.Build

namespace Scriptlet

/-! ### Statements one after another -/

namespace Eval

variable {evaluate : Tree → ScopeId → Eval Value} {scope : ScopeId} {store : Store}
  {parts : List Tree}

/-- Evaluated in turn from a store, some of the statements yields a signal or ends in a fault. -/
inductive Interrupted (evaluate : Tree → ScopeId → Eval Value) (scope : ScopeId) :
    Store → List Tree → Prop
  | signal {store after : Store} {statement : Tree} {rest : List Tree} {value : Value} :
      (evaluate statement scope).runFrom store = (.ok value, after) → value.isSignal = true →
      Interrupted evaluate scope store (statement :: rest)
  | fault {store after : Store} {statement : Tree} {rest : List Tree} {fault : Fault} :
      (evaluate statement scope).runFrom store = (.error fault, after) →
      Interrupted evaluate scope store (statement :: rest)
  | later {store after : Store} {statement : Tree} {rest : List Tree} {value : Value} :
      (evaluate statement scope).runFrom store = (.ok value, after) → value.isSignal = false →
      Interrupted evaluate scope after rest → Interrupted evaluate scope store (statement :: rest)

/-- Whether statements are interrupted is found by evaluating them. -/
instance decidableInterrupted (evaluate : Tree → ScopeId → Eval Value) (scope : ScopeId) :
    (store : Store) → (parts : List Tree) → Decidable (Interrupted evaluate scope store parts)
  | _, [] => isFalse fun interrupted => by cases interrupted
  | store, statement :: rest =>
    match ran : (evaluate statement scope).runFrom store with
    | (.error _, _) => isTrue (.fault ran)
    | (.ok value, after) =>
      match signal : value.isSignal with
      | true => isTrue (.signal ran signal)
      | false =>
        have := decidableInterrupted evaluate scope after rest
        decidable_of_iff (Interrupted evaluate scope after rest)
          ⟨.later ran signal, fun interrupted => by
            cases interrupted with
            | signal found ends =>
              cases ran.symm.trans found
              rw [signal] at ends
              cases ends
            | fault found => cases ran.symm.trans found
            | later found _ inner =>
              cases ran.symm.trans found
              exact inner⟩

section First

variable {after : Store} {statement : Tree} {value : Value}

/-- A signal ends the statements. -/
theorem runFrom_statements_signal
    (ran : (evaluate statement scope).runFrom store = (.ok value, after))
    (signal : value.isSignal = true) (last : Value) (rest : List Tree) :
    (statements evaluate scope last (statement :: rest)).runFrom store = (.ok value, after) := by
  rw [statements]
  exact runFrom_used_signal ran _ signal

/-- So does a fault. -/
theorem runFrom_statements_fault {fault : Fault}
    (ran : (evaluate statement scope).runFrom store = (.error fault, after)) (last : Value)
    (rest : List Tree) :
    (statements evaluate scope last (statement :: rest)).runFrom store = (.error fault, after) := by
  rw [statements]
  exact runFrom_bind_of_error ran _

/-- After any other value the statements go on. -/
theorem runFrom_statements_calm
    (ran : (evaluate statement scope).runFrom store = (.ok value, after))
    (calm : value.isSignal = false) (last : Value) (rest : List Tree) :
    (statements evaluate scope last (statement :: rest)).runFrom store =
      (statements evaluate scope value rest).runFrom after := by
  rw [statements]
  exact runFrom_used_calm ran _ calm

end First

/-- **What comes after a statement that is interrupted is not evaluated.** -/
theorem Interrupted.runFrom_append (interrupted : Interrupted evaluate scope store parts)
    (last last' : Value) (rest : List Tree) :
    (statements evaluate scope last (parts ++ rest)).runFrom store =
      (statements evaluate scope last' parts).runFrom store := by
  induction interrupted generalizing last last' with
  | signal ran signal =>
    rw [List.cons_append, runFrom_statements_signal ran signal,
      runFrom_statements_signal ran signal]
  | fault ran =>
    rw [List.cons_append, runFrom_statements_fault ran, runFrom_statements_fault ran]
  | @later _ _ _ _ value ran calm _ ih =>
    rw [List.cons_append, runFrom_statements_calm ran calm, runFrom_statements_calm ran calm]
    exact ih value value

/-- **Statements that are not interrupted** lead to the store that they lead to by themselves, and
what comes after them is evaluated there. -/
theorem runFrom_append_of_calm (calm : ¬ Interrupted evaluate scope store parts) (last : Value) :
    ∃ value, ∀ rest, (statements evaluate scope last (parts ++ rest)).runFrom store =
      (statements evaluate scope value rest).runFrom
        ((statements evaluate scope .nothing parts).runFrom store).2 := by
  induction parts generalizing store last with
  | nil => exact ⟨last, fun _ => rfl⟩
  | cons statement others ih =>
    obtain ⟨⟨result, after⟩, ran⟩ :
        ∃ outcome, (evaluate statement scope).runFrom store = outcome := ⟨_, rfl⟩
    cases result with
    | error fault => exact absurd (.fault ran) calm
    | ok first =>
      cases signal : first.isSignal with
      | true => exact absurd (.signal ran signal) calm
      | false =>
        obtain ⟨value, further⟩ := ih (fun inner => calm (.later ran signal inner)) first
        -- by themselves, the other statements are evaluated after the first value as after none
        have alone := congrArg Prod.snd (further [])
        rw [List.append_nil] at alone
        refine ⟨value, fun rest => ?_⟩
        rw [List.cons_append, runFrom_statements_calm ran signal, further,
          runFrom_statements_calm ran signal, alone]
        rfl

/-- Only what has no statements yields what came before. -/
theorem statements_congr (some_ : parts ≠ []) (last last' : Value) :
    statements evaluate scope last parts = statements evaluate scope last' parts := by
  cases parts with
  | nil => exact absurd rfl some_
  | cons => rfl

end Eval

/-! ### Sessions -/

/-- The store after texts have been run one after another on the root scope, whatever became of
each. -/
def submitted (limit : Nat) (sources : List String) (store : Store) : Store :=
  sources.foldl (fun store source => (runWithin limit source Store.root store).2) store

/-- Run from a store within one more than the limit, some statement of the text itself yields a
signal or ends in a fault. -/
def Disturbed (limit : Nat) (source : String) (store : Store) : Prop :=
  Eval.Interrupted (evaluate limit) Store.root store (statementsOf source)

/-- No text of a session is disturbed. -/
def Undisturbed (limit : Nat) : List String → Store → Prop
  | [], _ => True
  | source :: rest, store => ¬ Disturbed limit source store ∧
      Undisturbed limit rest (runWithin (limit + 1) source Store.root store).2

instance (limit : Nat) (source : String) (store : Store) :
    Decidable (Disturbed limit source store) :=
  inferInstanceAs (Decidable (Eval.Interrupted _ _ _ _))

instance decidableUndisturbed (limit : Nat) :
    (sources : List String) → (store : Store) → Decidable (Undisturbed limit sources store)
  | [], _ => isTrue trivial
  | source :: rest, store =>
    have := decidableUndisturbed limit rest (runWithin (limit + 1) source Store.root store).2
    inferInstanceAs (Decidable (_ ∧ _))

/-- Nor is any of the first texts. -/
theorem Undisturbed.of_append {limit : Nat} {before after : List String} {store : Store}
    (undisturbed : Undisturbed limit (before ++ after) store) : Undisturbed limit before store := by
  induction before generalizing store with
  | nil => trivial
  | cons source rest ih => exact ⟨undisturbed.1, ih undisturbed.2⟩

/-- The root scope is left with the same, as far as it is seen, and the same has been printed. -/
structure Store.SeenAlike (first second : Store) : Prop where
  printed : first.printed = second.printed
  bindings : Scope.seenBindings (first.bindings Store.root) =
    Scope.seenBindings (second.bindings Store.root)

/-- A session leads to reached stores. -/
theorem Store.Reached.submitted {store : Store} (reached : store.Reached) (limit : Nat)
    (sources : List String) : (submitted limit sources store).Reached := by
  induction sources generalizing store with
  | nil => exact reached
  | cons source rest ih => exact ih (.run limit source reached)

/-- A closed text is run by its statements. -/
theorem Closed.run_eq {source : String} (closed : Closed source) (limit : Nat) (store : Store) :
    let ran := (Eval.statements (evaluate limit) Store.root .nothing (statementsOf source)).runFrom
      store
    (runWithin (limit + 1) source Store.root store).1.result =
        (ran.1.map Value.operand).mapError .halted ∧
      (runWithin (limit + 1) source Store.root store).2 = ran.2 := by
  obtain ⟨-, -, -, -, -, parsed⟩ := closed.advances
  rw [runWithin_of_parse parsed, evaluate_program, Eval.runFrom_return]
  exact ⟨rfl, rfl⟩

/-- **The statements of a session that is not disturbed** lead to the store after it, and what comes
after them is evaluated there. -/
theorem runFrom_append_of_undisturbed {limit : Nat} {sources : List String}
    (closed : ∀ source ∈ sources, Closed source) {store : Store}
    (undisturbed : Undisturbed limit sources store) (last : Value) :
    ∃ value, ∀ rest, (Eval.statements (evaluate limit) Store.root last
        (sources.flatMap statementsOf ++ rest)).runFrom store =
      (Eval.statements (evaluate limit) Store.root value rest).runFrom
        (submitted (limit + 1) sources store) := by
  induction sources generalizing store last with
  | nil => exact ⟨last, fun _ => rfl⟩
  | cons source others ih =>
    obtain ⟨here, closed⟩ := List.forall_mem_cons.mp closed
    obtain ⟨calm, undisturbed⟩ := undisturbed
    obtain ⟨between, first⟩ := Eval.runFrom_append_of_calm calm last
    obtain ⟨value, further⟩ := ih closed undisturbed between
    refine ⟨value, fun rest => ?_⟩
    rw [List.flatMap_cons, List.append_assoc, first, ← (here.run_eq limit store).2, further]
    rfl

/-! ### Places -/

/-- Stores that are alike but for places are seen alike, if all that is bound can be rendered. -/
theorem Store.SeenAlike.of_unplaced {first second : Store}
    (alike : first.unplaced = second.unplaced) (sound : second.Holds Value.Sound) :
    first.SeenAlike second := by
  have printed : first.unplaced.printed = second.unplaced.printed := by rw [alike]
  refine ⟨printed, ?_⟩
  have same := congrArg (fun store => store.bindings Store.root) alike
  simp only [Store.bindings_unplaced] at same
  have shown := safety.rendered_of_bindings sound Store.root
  generalize first.bindings Store.root = bindings at same
  generalize second.bindings Store.root = others at same shown
  induction bindings generalizing others with
  | nil =>
    cases others with
    | nil => rfl
    | cons => cases same
  | cons binding rest ih =>
    cases others with
    | nil => cases same
    | cons other others =>
      obtain ⟨here, later⟩ := List.forall_mem_cons.mp shown
      obtain ⟨pair, same⟩ := List.cons_eq_cons.mp same
      obtain ⟨name, value⟩ := Prod.mk.inj pair
      have tail := ih others same later
      simp only [Scope.seenBindings, List.map_cons] at tail ⊢
      rw [name, Value.seen_of_unplaced value here, tail]

/-- Results that are alike but for places are seen as the same, if they are faults by design or can
be rendered. -/
theorem seen_of_unplacedResult {first second : Except Fault Value}
    (alike : unplacedResult Value.unplaced first = unplacedResult Value.unplaced second)
    (halts : ∀ fault, second = .error fault → fault.ByDesign)
    (shown : ∀ value, second = .ok value → ∃ text, value.rendered = .ok text) :
    first.map Value.seen = second.map Value.seen := by
  cases second with
  | ok value =>
    cases first with
    | ok other =>
      have same : other.unplaced = value.unplaced := Except.ok.inj alike
      simp only [Except.map, Value.seen_of_unplaced same (shown value rfl)]
    | error fault => cases alike
  | error fault =>
    cases first with
    | ok other => cases alike
    | error other =>
      have same : other.unplaced = fault.unplaced := Except.error.inj alike
      rcases halts fault rfl with rfl | rfl
      · cases other <;> first | rfl | cases same
      · cases other <;> first | rfl | cases same

/-! ### All at once -/

section Joined

variable {sources : List String} (closed : ∀ source ∈ sources, Closed source) (limit : Nat)

include closed

/-- Texts run at once do what all their statements do, places aside. -/
theorem joined_unplaced :
    let whole := runWithin (limit + 1) ("\n".intercalate sources) Store.root .initial
    let ran := (Eval.statements (evaluate limit) Store.root .nothing
      (sources.flatMap statementsOf)).runFrom .initial
    (∃ result, whole.1.result = result.mapError .halted ∧
      unplacedResult Value.unplaced result =
        unplacedResult Value.unplaced (ran.1.map Value.operand)) ∧
      whole.2.unplaced = ran.2.unplaced := by
  intro whole ran
  obtain ⟨program, parsed, alike⟩ := parse_joined closed
  have here := evaluate_unplaced (limit + 1) program Store.root .initial
  have there := evaluate_unplaced (limit + 1) (.node .program (sources.flatMap statementsOf))
    Store.root .initial
  rw [alike, there, evaluate_program, Eval.runFrom_return] at here
  obtain ⟨result, store⟩ := Prod.mk.inj here
  have run : whole = _ := runWithin_of_parse parsed (limit + 1) Store.root .initial
  rw [run]
  exact ⟨⟨_, rfl, result.symm⟩, store.symm⟩

/-- What texts run at once leave. -/
theorem joined_store {after : Store} (reached : after.Reached)
    (left_ : ((Eval.statements (evaluate limit) Store.root .nothing
      (sources.flatMap statementsOf)).runFrom .initial).2 = after) :
    (runWithin (limit + 1) ("\n".intercalate sources) Store.root .initial).2.SeenAlike after := by
  have alike := (joined_unplaced closed limit).2
  rw [left_] at alike
  exact .of_unplaced alike reached.sound

/-- What texts run at once yield, if all their statements yield what a text yields that is run from
a store. -/
theorem joined_result {source : String} (here : Closed source) {store : Store}
    (reached : store.Reached)
    (yields : ((Eval.statements (evaluate limit) Store.root .nothing
        (sources.flatMap statementsOf)).runFrom .initial).1 =
      ((Eval.statements (evaluate limit) Store.root .nothing (statementsOf source)).runFrom
        store).1) :
    (runWithin (limit + 1) ("\n".intercalate sources) Store.root .initial).1.result.map Value.seen =
      (runWithin (limit + 1) source Store.root store).1.result.map Value.seen := by
  obtain ⟨result, ended, alike⟩ := (joined_unplaced closed limit).1
  obtain ⟨-, -, -, -, -, parsed⟩ := here.advances
  obtain ⟨halts, shown⟩ := safety.run_settles reached.sound parsed (limit + 1)
  rw [(here.run_eq limit store).1] at halts shown ⊢
  rw [yields] at alike
  rw [ended, mapError_halted_seen, mapError_halted_seen]
  refine congrArg _ (seen_of_unplacedResult alike (fun fault failed => ?_) fun value found => ?_)
  · obtain ⟨_, same, design⟩ := halts (.halted fault) (by rw [failed]; rfl)
    cases same
    exact design
  · exact shown value (by rw [found]; rfl)

/-- Texts without statements yield nothing. -/
theorem joined_nothing (none : ∀ source ∈ sources, statementsOf source = []) :
    (runWithin (limit + 1) ("\n".intercalate sources) Store.root .initial).1.result =
      .ok .nothing := by
  obtain ⟨result, ended, alike⟩ := (joined_unplaced closed limit).1
  rw [List.flatMap_eq_nil_iff.mpr none] at alike
  cases result with
  | error fault => cases alike
  | ok value =>
    have same : value.unplaced = .nothing := Except.ok.inj alike
    rw [ended, Value.unplaced_eq_nothing.mp same]
    rfl

end Joined

/-! ### Main statement -/

/-- **A program may be split over submissions.** -/
theorem submissions_joined (limit : Nat) {sources : List String}
    (closed : ∀ source ∈ sources, Closed source) :
    let whole := runWithin (limit + 1) ("\n".intercalate sources) Store.root .initial
    (Undisturbed limit sources .initial →
      whole.2.SeenAlike (submitted (limit + 1) sources .initial) ∧
      ((∀ source ∈ sources, statementsOf source = []) → whole.1.result = .ok .nothing) ∧
      ∀ before source after, sources = before ++ source :: after → statementsOf source ≠ [] →
        (∀ other ∈ after, statementsOf other = []) →
        whole.1.result.map Value.seen =
          (runWithin (limit + 1) source Store.root
            (submitted (limit + 1) before .initial)).1.result.map Value.seen) ∧
    ∀ before source after, sources = before ++ source :: after →
      Undisturbed limit before .initial →
      Disturbed limit source (submitted (limit + 1) before .initial) →
      let ended := runWithin (limit + 1) source Store.root (submitted (limit + 1) before .initial)
      whole.1.result.map Value.seen = ended.1.result.map Value.seen ∧
        whole.2.SeenAlike ended.2 := by
  intro whole
  have reached := fun before => Store.Reached.initial.submitted (limit + 1) before
  refine ⟨fun undisturbed => ⟨?_, fun none => ?_, ?_⟩, ?_⟩
  · obtain ⟨value, further⟩ := runFrom_append_of_undisturbed closed undisturbed .nothing
    have left_ := further []
    rw [List.append_nil] at left_
    exact joined_store closed limit (reached sources) (by rw [left_]; rfl)
  · exact joined_nothing closed limit none
  · rintro before source after rfl some_ none
    obtain ⟨closedBefore, closedAfter⟩ := List.forall_mem_append.mp closed
    obtain ⟨value, further⟩ :=
      runFrom_append_of_undisturbed closedBefore undisturbed.of_append .nothing
    have nothing : after.flatMap statementsOf = [] := List.flatMap_eq_nil_iff.mpr none
    refine joined_result closed limit (List.forall_mem_cons.mp closedAfter).1 (reached before) ?_
    rw [List.flatMap_append, List.flatMap_cons, nothing, List.append_nil, further,
      Eval.statements_congr some_ value .nothing]
  · rintro before source after rfl undisturbed disturbed ended
    obtain ⟨closedBefore, closedAfter⟩ := List.forall_mem_append.mp closed
    have here := (List.forall_mem_cons.mp closedAfter).1
    obtain ⟨value, further⟩ := runFrom_append_of_undisturbed closedBefore undisturbed .nothing
    have stopped : (Eval.statements (evaluate limit) Store.root .nothing
        ((before ++ source :: after).flatMap statementsOf)).runFrom .initial =
          (Eval.statements (evaluate limit) Store.root .nothing (statementsOf source)).runFrom
            (submitted (limit + 1) before .initial) := by
      rw [List.flatMap_append, List.flatMap_cons, further, disturbed.runFrom_append value .nothing]
    refine ⟨joined_result closed limit here (reached before) (by rw [stopped]), ?_⟩
    refine joined_store closed limit (.run (limit + 1) source (reached before)) ?_
    rw [stopped, (here.run_eq limit _).2]

/-- A binding and a text without tokens end well; then there is a division by zero. -/
theorem submissions_joined_division :
    let first := ["let x = 1 ;", ""]
    let all := first ++ ["x / 0 ;"]
    (∀ source ∈ all, Closed source) ∧ Undisturbed 9 first .initial ∧
      Disturbed 9 "x / 0 ;" (submitted 10 first .initial) ∧
      (runWithin 10 ("\n".intercalate first) Store.root .initial).2.SeenAlike
        (submitted 10 first .initial) ∧
      (runWithin 10 ("\n".intercalate all) Store.root .initial).2.SeenAlike
        (runWithin 10 "x / 0 ;" Store.root (submitted 10 first .initial)).2 := by
  intro first all
  have binding := @closed_printed (Build.program [Build.binding "x" (Build.integer 1)])
    (.program (List.forall_mem_singleton.mpr
      (.binding rfl (by decide) (.integer rfl (by decide)))))
  have none := @closed_printed (Build.program []) (.program (List.forall_mem_nil _))
  have division := @closed_printed
    (Build.program [Build.statement (Build.binary (Build.identifier "x") "/" (Build.integer 0))])
    (.program (List.forall_mem_singleton.mpr (.expressing
      (.binary (by decide) (by decide) (.identifier rfl (by decide))
        (.integer rfl (by decide))))))
  have closed : ∀ source ∈ all, Closed source :=
    List.forall_mem_cons.mpr ⟨binding, List.forall_mem_cons.mpr
      ⟨none, List.forall_mem_singleton.mpr division⟩⟩
  have undisturbed : Undisturbed 9 first .initial := by decide +kernel
  have disturbed : Disturbed 9 "x / 0 ;" (submitted 10 first .initial) := by decide +kernel
  refine ⟨closed, undisturbed, disturbed, ?_, ?_⟩
  · have closedFirst : ∀ source ∈ first, Closed source :=
      fun source member => closed source (List.mem_append_left _ member)
    exact ((submissions_joined 9 closedFirst).1 undisturbed).1
  · exact ((submissions_joined 9 closed).2 first "x / 0 ;" [] rfl undisturbed disturbed).2

end Scriptlet
