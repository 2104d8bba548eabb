/-
**Whole evaluations keep accounts.**

* `Tree.Makes`: a tree makes a value of its own: a literal with an identity, or an operator that
  joins strings.
* `Account.Allows`: the moments that are accounted for: everything bound is, and what is entered,
  yielded or applied, and what a tree makes is the newest value.
* `RunsAmong`: a program is run on a store in the course of sources run in turn.

Main statements: `Account.evaluate_keeps`, by induction on the limit from one lemma for each node,
and `Account.kept_among`: all programs that are run in turn from an empty store are accounted for by
what is known in the end.
-/
import Scriptlet.Proofs.Evaluation.Account

namespace Scriptlet

/-- A tree that yields a value makes it: a literal whose value has an identity, unless a part ends
it, or an operator that yields a string. -/
def Tree.Makes (tree : Tree) (value : Value) : Prop :=
  match tree.label? with
  | some .string | some .array | some .hash | some .function => value.isSignal = false
  | some .binary => value.tag? = some .string
  | _ => False

namespace Account

variable {account : Account} {alarm : Fault} {known : account.Known} {store : Store}

/-- What a literal may yield: a signal of a part, or the newest value. -/
def Forms (account : Account) (known : account.Known) (value : Value) : Prop :=
  account.holds known value ∧ (value.isSignal = false → account.Newest known value)

/-- What a tree in a given role may yield; what it makes is the newest value. -/
def Yields (account : Account) (role : Role) (tree : Tree) (known : account.Known)
    (value : Value) : Prop :=
  account.Settles role known value ∧ (tree.Makes value → account.Newest known value)

theorem Made.forms {value : Value} (made : account.Made known value) : account.Forms known value :=
  ⟨made.1, fun _ => made.2⟩

/-- A signal is no string. -/
theorem joins_of_isSignal {value : Value} (held : account.holds known value)
    (signal : value.isSignal = true) : account.Joins known value :=
  .of_tag_ne ⟨held, by cases value <;> simp_all [Value.isSignal, Value.tag?]⟩

theorem forms_of_isSignal {value : Value} (held : account.holds known value)
    (signal : value.isSignal = true) : account.Forms known value :=
  ⟨held, fun plain => by simp [plain] at signal⟩

/-! ### One level of evaluation -/

/-- The evaluation of trees keeps the account. -/
def KeepsTrees (account : Account) (alarm : Fault)
    (evaluate : account.Known × Fault → Tree → ScopeId → Eval Value)
    (evaluate' : Tree → ScopeId → Eval Value) : Prop :=
  ∀ {known store role tree} scope, account.Good known store → tree.Shaped account.token role →
    account.Keeps alarm (account.Settles role) known store
      (fun watcher => evaluate watcher tree scope) (evaluate' tree scope)

/-- Calls keep the account. -/
def KeepsCalls (account : Account) (alarm : Fault)
    (apply : account.Known × Fault → Value → List Value → Eval Value)
    (apply' : Value → List Value → Eval Value) : Prop :=
  ∀ {known store callee arguments}, account.Good known store → account.holds known callee →
    (∀ argument ∈ arguments, account.holds known argument) →
    account.Keeps alarm account.holds known store
      (fun watcher => apply watcher callee arguments) (apply' callee arguments)

/-- A signal, or values that are accounted for. -/
inductive HoldsEach (account : Account) (known : account.Known) : Value ⊕ List Value → Prop
  | signal {value : Value} : account.holds known value → value.isSignal = true →
      HoldsEach account known (.inl value)
  | values {items : List Value} : (∀ item ∈ items, account.holds known item) →
      HoldsEach account known (.inr items)

section Step

variable {evaluate : account.Known × Fault → Tree → ScopeId → Eval Value}
  {evaluate' : Tree → ScopeId → Eval Value}
  {apply : account.Known × Fault → Value → List Value → Eval Value}
  {apply' : Value → List Value → Eval Value}

/-- A name has the value that some scope binds it to, or is that of a builtin or unknown. -/
theorem identifier_keeps (good : account.Good known store) (scope : ScopeId) (name : String) :
    account.Keeps alarm account.holds known store (fun _ => Eval.identifier scope name)
      (Eval.identifier scope name) := by
  refine .bind (.get good) ?_
  intro more after seen _ good seenGood
  cases found : seen.lookup? scope name with
  | some value => exact .pure good (seenGood.holds.of_lookup? found)
  | none =>
    cases Builtin.ofName? name with
    | some builtin => exact .pure good (account.builtin builtin)
    | none => exact complain_keeps good _

variable (evaluates : account.KeepsTrees alarm evaluate evaluate')

include evaluates

theorem expression_keeps {part : Tree} (scope : ScopeId) (good : account.Good known store)
    (shaped : part.Shaped account.token .expression) :
    account.Keeps alarm account.holds known store (fun watcher => evaluate watcher part scope)
      (evaluate' part scope) :=
  (evaluates scope good shaped).weaken Settles.holds

/-- A part is evaluated, and then what follows, unless the part yields a signal. -/
theorem part_keeps {ends : account.Known → Value → Prop}
    (signals : ∀ {known value}, account.holds known value → value.isSignal = true →
      ends known value)
    (scope : ScopeId) (good : account.Good known store) {part : Tree}
    (shaped : part.Shaped account.token .expression)
    {next : account.Known × Fault → Value → Eval Value} {other : Value → Eval Value}
    (follows : ∀ {more after value}, account.later known more → account.Good more after →
      account.holds more value →
      account.Keeps alarm ends more after (fun watcher => next watcher value) (other value)) :
    account.Keeps alarm ends known store
      (fun watcher => evaluate watcher part scope >>= fun value =>
        Eval.unlessSignal value (next watcher value))
      (evaluate' part scope >>= fun value => Eval.unlessSignal value (other value)) := by
  refine .bind (expression_keeps evaluates scope good shaped) ?_
  intro more after value onward good held
  cases ended : value.isSignal with
  | true => simpa only [Eval.unlessSignal, ended, if_true] using .pure good (signals held ended)
  | false =>
    simpa only [Eval.unlessSignal, ended, Bool.false_eq_true, if_false] using
      follows onward good held

theorem statements_keeps (scope : ScopeId) (good : account.Good known store) {last : Value}
    (settles : account.Settles .statement known last) {parts : List Tree}
    (each : ∀ part ∈ parts, part.Shaped account.token .statement) :
    account.Keeps alarm (account.Settles .statement) known store
      (fun watcher => Eval.statements (evaluate watcher) scope last parts)
      (Eval.statements evaluate' scope last parts) := by
  induction parts generalizing known store last with
  | nil => exact .pure good settles
  | cons part rest ih =>
    obtain ⟨here, others⟩ := List.forall_mem_cons.mp each
    refine .bind (evaluates scope good here) ?_
    intro more after value _ good settles
    cases ended : value.isSignal with
    | true => simpa only [Eval.unlessSignal, ended, if_true] using .pure good settles
    | false =>
      simpa only [Eval.unlessSignal, ended, Bool.false_eq_true, if_false] using
        ih good settles others

theorem values_keeps (scope : ScopeId) (good : account.Good known store) {parts : List Tree}
    (each : ∀ part ∈ parts, part.Shaped account.token .expression) :
    account.Keeps alarm account.HoldsEach known store
      (fun watcher => Eval.values (evaluate watcher) scope parts)
      (Eval.values evaluate' scope parts) := by
  induction parts generalizing known store with
  | nil => exact .pure good (.values (List.forall_mem_nil _))
  | cons part rest ih =>
    obtain ⟨here, others⟩ := List.forall_mem_cons.mp each
    refine .bind (expression_keeps evaluates scope good here) ?_
    intro more after value _ good held
    cases ended : value.isSignal with
    | true => simpa only [ended, if_true] using .pure good (.signal held ended)
    | false =>
      simp only [Bool.false_eq_true, if_false]
      refine .bind (ih good others) ?_
      intro most last result within good listed
      cases listed with
      | signal held ended => exact .pure good (.signal held ended)
      | values items =>
        exact .pure good
          (.values (List.forall_mem_cons.mpr ⟨account.holds_later within held, items⟩))

theorem binding_keeps (scope : ScopeId) (good : account.Good known store) (name : Token)
    {part : Tree} (shaped : part.Shaped account.token .expression) :
    account.Keeps alarm (account.Settles .statement) known store
      (fun watcher => Eval.binding (evaluate watcher) scope [.leaf name, part])
      (Eval.binding evaluate' scope [.leaf name, part]) := by
  refine part_keeps evaluates (fun held _ => .inl held) scope good shaped ?_
  intro more after value _ good held
  refine .bind (.lift good _) fun onward good _ => ?_
  have bound := fun name => good.holds.bind scope name (account.holds_later onward held)
  refine .bind (.modify ⟨good.counts, bound _⟩) fun _ good _ => ?_
  exact .pure good (.inr ⟨rfl, by simp⟩)

theorem returning_keeps (scope : ScopeId) (good : account.Good known store) {part : Tree}
    (shaped : part.Shaped account.token .expression) :
    account.Keeps alarm account.holds known store
      (fun watcher => Eval.returning (evaluate watcher) scope [part])
      (Eval.returning evaluate' scope [part]) := by
  refine part_keeps evaluates (fun held _ => held) scope good shaped ?_
  exact fun _ good held => (returned_made good held).weaken And.left

theorem unary_keeps (scope : ScopeId) (good : account.Good known store) (operator : Token)
    {part : Tree} (shaped : part.Shaped account.token .expression) :
    account.Keeps alarm account.holds known store
      (fun watcher => Eval.unary (evaluate watcher) scope [.leaf operator, part])
      (Eval.unary evaluate' scope [.leaf operator, part]) := by
  refine part_keeps evaluates (fun held _ => held) scope good shaped ?_
  intro more after value _ good _
  exact .bind (.lift good _) fun _ good _ => applyUnary_keeps good _ value

theorem binary_keeps (scope : ScopeId) (good : account.Good known store) (operator : Token)
    {first second : Tree} (shaped : first.Shaped account.token .expression)
    (shaped' : second.Shaped account.token .expression) :
    account.Keeps alarm account.Joins known store
      (fun watcher => Eval.binary (evaluate watcher) scope [first, .leaf operator, second])
      (Eval.binary evaluate' scope [first, .leaf operator, second]) := by
  refine part_keeps evaluates joins_of_isSignal scope good shaped ?_
  intro more after left _ good _
  refine part_keeps evaluates joins_of_isSignal scope good shaped' ?_
  intro most last right _ good _
  exact .bind (.lift good _) fun _ good _ => applyBinary_keeps good _ left right

theorem index_keeps (scope : ScopeId) (good : account.Good known store) {first second : Tree}
    (shaped : first.Shaped account.token .expression)
    (shaped' : second.Shaped account.token .expression) :
    account.Keeps alarm account.holds known store
      (fun watcher => Eval.index (evaluate watcher) scope [first, second])
      (Eval.index evaluate' scope [first, second]) := by
  refine part_keeps evaluates (fun held _ => held) scope good shaped ?_
  intro more after container _ good held
  refine part_keeps evaluates (fun held _ => held) scope good shaped' ?_
  intro most last position within good _
  exact applyIndex_keeps good (account.holds_later within held) position

/-- A branch, with null for no value. -/
theorem branch_keeps (scope : ScopeId) (good : account.Good known store) {part : Tree}
    (shaped : part.Shaped account.token .block) :
    account.Keeps alarm account.holds known store
      (fun watcher => do return (← evaluate watcher part scope).orNull)
      (do return (← evaluate' part scope).orNull) :=
  .bind (evaluates scope good shaped) fun _ good settles => .pure good settles.orNull

/-- A condition that chooses a branch, where the second one may be left out. -/
theorem conditional_keeps (scope : ScopeId) (good : account.Good known store)
    {condition consequence : Tree} {rest : List Tree}
    (shaped : condition.Shaped account.token .expression)
    (shaped' : consequence.Shaped account.token .block)
    (each : ∀ part ∈ rest, part.Shaped account.token .block) :
    account.Keeps alarm account.holds known store
      (fun watcher => Eval.conditional (evaluate watcher) scope (condition :: consequence :: rest))
      (Eval.conditional evaluate' scope (condition :: consequence :: rest)) := by
  refine part_keeps evaluates (fun held _ => held) scope good shaped ?_
  intro more after value _ good _
  cases chosen : value.isTruthy with
  | true => exact branch_keeps evaluates scope good shaped'
  | false =>
    cases rest with
    | nil => exact .pure good account.null
    | cons alternative others =>
      have alternate := each alternative List.mem_cons_self
      cases alternate with
      | block each' => exact branch_keeps evaluates scope good (.block each')

theorem array_keeps (scope : ScopeId) (good : account.Good known store) {parts : List Tree}
    (each : ∀ part ∈ parts, part.Shaped account.token .expression) :
    account.Keeps alarm account.Forms known store
      (fun watcher => Eval.array (evaluate watcher) scope parts)
      (Eval.array evaluate' scope parts) := by
  refine .bind (values_keeps evaluates scope good each) ?_
  intro more after result _ good listed
  cases listed with
  | signal held ended => exact .pure good (forms_of_isSignal held ended)
  | values items => exact (array_made good items).weaken Made.forms

/-- The pairs of a hash, added to the pairs so far. -/
theorem pairs_keeps (scope : ScopeId) (good : account.Good known store)
    {done : List (Value × Value)}
    (held : ∀ pair ∈ done, account.holds known pair.1 ∧ account.holds known pair.2)
    {parts : List Tree} (each : ∀ part ∈ parts, part.Shaped account.token .pair) :
    account.Keeps alarm account.Forms known store
      (fun watcher => Eval.pairs (evaluate watcher) scope done parts)
      (Eval.pairs evaluate' scope done parts) := by
  induction parts generalizing known store done with
  | nil => exact (hash_made good held).weaken Made.forms
  | cons part rest ih =>
    obtain ⟨here, others⟩ := List.forall_mem_cons.mp each
    cases here with
    | pair first second =>
      refine part_keeps evaluates forms_of_isSignal scope good first ?_
      intro more after key onward good keyHeld
      cases key.key? with
      | none =>
        refine .bind (tagOf_keeps good key) fun _ good _ => ?_
        exact (complain_made good _).weaken Made.forms
      | some found =>
        refine part_keeps evaluates forms_of_isSignal scope good second ?_
        intro most last value further good valueHeld
        refine ih good (fun pair member => ?_) others
        rcases Value.mem_putPair member with rfl | before
        · exact ⟨account.holds_later further keyHeld, valueHeld⟩
        · exact (held pair before).imp (account.holds_later (account.trans onward further))
            (account.holds_later (account.trans onward further))

theorem application_keeps (applies : account.KeepsCalls alarm apply apply') (scope : ScopeId)
    (good : account.Good known store) {callee : Tree}
    (shaped : callee.Shaped account.token .expression) {arguments : List Tree}
    (each : ∀ part ∈ arguments, part.Shaped account.token .expression) :
    account.Keeps alarm account.holds known store
      (fun watcher => Eval.application (evaluate watcher) (apply watcher) scope
        [callee, .node .arguments arguments])
      (Eval.application evaluate' apply' scope [callee, .node .arguments arguments]) := by
  refine part_keeps evaluates (fun held _ => held) scope good shaped ?_
  intro more after value _ good held
  refine .bind (values_keeps evaluates scope good each) ?_
  intro most last result within good listed
  cases listed with
  | signal held _ => exact .pure good held
  | values items => exact applies good (account.holds_later within held) items

/-- **One level of evaluation keeps the account**, if the evaluation of the parts and calls do. -/
theorem step_keeps (applies : account.KeepsCalls alarm apply apply') (scope : ScopeId)
    (good : account.Good known store) {role : Role} {tree : Tree}
    (shaped : tree.Shaped account.token role) :
    account.Keeps alarm (account.Yields role tree) known store
      (fun watcher => Eval.step (evaluate watcher) (apply watcher) scope tree)
      (Eval.step evaluate' apply' scope tree) := by
  have none : ∀ {role known}, role ≠ .expression → account.Settles role known .nothing :=
    fun other => .inr ⟨rfl, other⟩
  cases shaped with
  | program each =>
    refine .bind (statements_keeps evaluates scope good (none (by simp)) each) ?_
    intro more after value _ good settles
    refine .pure good ⟨?_, False.elim⟩
    exact settles.operand.imp_right fun absent => ⟨absent.1, by simp⟩
  | block each =>
    refine (statements_keeps evaluates scope good (none (by simp)) each).weaken fun settles => ?_
    exact ⟨settles.imp_right fun absent => ⟨absent.1, by simp⟩, False.elim⟩
  | binding _ _ part =>
    exact (binding_keeps evaluates scope good _ part).weaken fun settles => ⟨settles, False.elim⟩
  | returning part =>
    exact (returning_keeps evaluates scope good part).weaken fun held => ⟨.inl held, False.elim⟩
  | expressing part =>
    exact (expression_keeps evaluates scope good part).weaken fun held => ⟨.inl held, False.elim⟩
  | identifier =>
    refine .bind (.lift good _) fun _ good _ => ?_
    exact (identifier_keeps good scope _).weaken fun held => ⟨.inl held, False.elim⟩
  | integer kind genuine =>
    refine .bind (.lift good _) ?_
    intro more after text _ good read
    obtain rfl := Except.ok.inj read
    split
    next number found =>
      exact .pure good ⟨.inl (account.literal genuine kind found), False.elim⟩
    · exact .throw good _
  | string =>
    refine .bind (.lift good _) fun _ good _ => ?_
    exact (string_made good _).weaken fun made => ⟨.inl made.1, fun _ => made.2⟩
  | boolean =>
    refine .bind (.lift good _) fun _ good _ => ?_
    exact .pure good ⟨.inl (account.boolean _), False.elim⟩
  | unary _ _ part =>
    exact (unary_keeps evaluates scope good _ part).weaken fun held => ⟨.inl held, False.elim⟩
  | binary _ _ first second =>
    exact (binary_keeps evaluates scope good _ first second).weaken
      fun joins => ⟨.inl joins.1, joins.2⟩
  | conditional condition consequence =>
    exact (conditional_keeps evaluates scope good condition consequence
      (List.forall_mem_nil _)).weaken fun held => ⟨.inl held, False.elim⟩
  | choice condition consequence alternative =>
    exact (conditional_keeps evaluates scope good condition consequence
      (List.forall_mem_singleton.mpr alternative)).weaken fun held => ⟨.inl held, False.elim⟩
  | function _ body =>
    exact (function_made good _ body scope).weaken fun made => ⟨.inl made.1, fun _ => made.2⟩
  | call callee each =>
    exact (application_keeps evaluates applies scope good callee each).weaken
      fun held => ⟨.inl held, False.elim⟩
  | index first second =>
    exact (index_keeps evaluates scope good first second).weaken
      fun held => ⟨.inl held, False.elim⟩
  | array each =>
    exact (array_keeps evaluates scope good each).weaken fun forms => ⟨.inl forms.1, forms.2⟩
  | hash each =>
    exact (pairs_keeps evaluates scope good (List.forall_mem_nil _) each).weaken
      fun forms => ⟨.inl forms.1, forms.2⟩
  | pair => exact .pure good ⟨none (by simp), False.elim⟩

end Step

/-! ### Whole evaluations -/

/-- The moments that are accounted for. -/
inductive Allows (account : Account) (known : account.Known) : Moment → Store → Prop
  | entered {store : Store} (tree : Tree) (scope : ScopeId) : account.Good known store →
      Allows account known (.entered tree scope) store
  | yielded {store : Store} {tree : Tree} {value : Value} (role : Role) :
      account.Good known store → account.Yields role tree known value →
      Allows account known (.yielded tree value) store
  | applied {store : Store} {callee : Value} {arguments : List Value} :
      account.Good known store → account.holds known callee →
      (∀ argument ∈ arguments, account.holds known argument) →
      Allows account known (.applied callee arguments) store

section Watched

variable {permits : account.Known → Moment → Store → Prop}

/-- A moment that is accounted for passes, unless the assumption fails. -/
theorem watched_keeps {α : Type} {yields : account.Known → α → Prop} (moment : Moment)
    (permitted : ∀ last, account.later known last → permits last moment store)
    {first : account.Known × Fault → Eval α} {second : Eval α}
    (keeps : account.assumes moment store → account.Keeps alarm yields known store first second) :
    account.Keeps alarm yields known store
      (fun watcher => Eval.watch (permits watcher.1) watcher.2 moment >>= fun _ => first watcher)
      (Eval.watch account.assumes alarm moment >>= fun _ => second) := by
  by_cases assumed : account.assumes moment store
  · have passed : (Eval.watch account.assumes alarm moment >>= fun _ => second).runFrom store =
        second.runFrom store := by
      rw [Eval.runFrom_bind, Eval.runFrom_watch_of_permits assumed]
    cases keeps assumed with
    | raised raised => exact .raised (by rw [passed]; exact raised)
    | kept onward good same yielded =>
      refine .kept onward (by rw [passed]; exact good) (fun watcher further => ?_)
        (by rw [passed]; exact yielded)
      rw [passed, Eval.runFrom_bind,
        Eval.runFrom_watch_of_permits (permitted watcher.1 (account.trans onward further))]
      exact same watcher further
  · refine .raised ?_
    rw [Eval.runFrom_bind, Eval.runFrom_watch_of_not_permits assumed]

variable (allowed : ∀ {known last moment store}, account.later known last →
  account.Allows known moment store → permits last moment store)

include allowed

/-- **Every evaluation keeps the account**, and meets only moments that are accounted for. -/
theorem evaluate_keeps (alarm : Fault) (limit : Nat) (scope : ScopeId)
    (good : account.Good known store) {role : Role} {tree : Tree} (shaped : tree.Shaped account.token role) :
    account.Keeps alarm (account.Yields role tree) known store
      (fun watcher => evaluateWatched (permits watcher.1) watcher.2 limit tree scope)
      (evaluateWatched account.assumes alarm limit tree scope) := by
  induction limit generalizing known store role tree scope with
  | zero => exact .throw good _
  | succ limit ih =>
    have evaluates : account.KeepsTrees alarm
        (fun watcher => evaluateWatched (permits watcher.1) watcher.2 limit)
        (evaluateWatched account.assumes alarm limit) :=
      fun scope good shaped => (ih scope good shaped).weaken And.left
    have applies : account.KeepsCalls alarm
        (fun watcher => Eval.callWatched (permits watcher.1) watcher.2 (Value.inspectWithin limit)
          (evaluateWatched (permits watcher.1) watcher.2 limit))
        (Eval.callWatched account.assumes alarm (Value.inspectWithin limit)
          (evaluateWatched account.assumes alarm limit)) :=
      fun good callee held =>
        watched_keeps _ (fun last onward => allowed onward (.applied good callee held))
          (call_keeps _ evaluates good callee held)
    refine watched_keeps (.entered tree scope)
      (fun last onward => allowed onward (.entered tree scope good)) fun _ => ?_
    refine .bind (step_keeps evaluates applies scope good shaped) ?_
    intro more after value _ good yields
    exact watched_keeps _ (fun last onward => allowed onward (.yielded role good yields))
      fun _ => .pure good yields

/-- Where the assumption holds all along, so does what is allowed by all that is known at the
end. -/
theorem always_keeps {limit : Nat} {scope : ScopeId} (good : account.Good known store)
    {role : Role} {tree : Tree} (shaped : tree.Shaped account.token role)
    (assumed : AlwaysEvaluating account.assumes limit tree scope store) :
    ∃ more, account.later known more ∧
      account.Good more ((evaluate limit tree scope).runFrom store).2 ∧
      (∀ value, ((evaluate limit tree scope).runFrom store).1 = .ok value →
        account.Settles role more value) ∧
      ∀ last, account.later more last →
        AlwaysEvaluating (permits last) limit tree scope store := by
  -- an alarm that is told from the fault in which the evaluation ends, if it ends in one
  obtain ⟨alarm, other⟩ :
      ∃ alarm, ((evaluate limit tree scope).runFrom store).1 ≠ .error alarm := by
    by_cases halts : ((evaluate limit tree scope).runFrom store).1 = .error .divisionByZero
    · exact ⟨.nestingTooDeep, by rw [halts]; simp⟩
    · exact ⟨.divisionByZero, halts⟩
  have keeps := evaluate_keeps allowed alarm limit scope good shaped
  cases keeps with
  | raised raised =>
    rw [assumed alarm] at raised
    exact absurd raised other
  | @kept more onward good same yielded =>
    rw [assumed alarm] at good yielded
    refine ⟨more, onward, good, fun value result => (yielded value result).1, ?_⟩
    intro last further other
    rw [← assumed alarm]
    exact same (last, other) further

end Watched

end Account

/-! ### Programs run in turn -/

/-- A program that is run on the root scope of a store, where sources are run in turn. -/
inductive RunsAmong (limit : Nat) : Store → List String → Tree → Store → Prop
  | here {store : Store} {source : String} {rest : List String} {program : Tree} :
      parse source = .ok program → RunsAmong limit store (source :: rest) program store
  | later {store before : Store} {source : String} {rest : List String} {program : Tree} :
      RunsAmong limit (runWithin limit source Store.root store).2 rest program before →
      RunsAmong limit store (source :: rest) program before

section Session

variable (account : Account) (permits : account.Known → Moment → Store → Prop)
  (allowed : ∀ {known last moment store}, account.later known last →
    account.Allows known moment store → permits last moment store)
  (shaped : ∀ {source program}, parse source = .ok program →
    program.Shaped account.token .program)

include allowed shaped

/-- **All programs run in turn are accounted for by what is known in the end**, where what is
assumed of each of them holds. -/
theorem Account.kept_among (limit : Nat) {known : account.Known} {store : Store}
    (good : account.Good known store) (sources : List String)
    (assumed : ∀ program before, RunsAmong limit store sources program before →
      AlwaysEvaluating account.assumes limit program Store.root before) :
    ∃ last, account.later known last ∧
      ∀ program before, RunsAmong limit store sources program before →
        AlwaysEvaluating (permits last) limit program Store.root before ∧
        ∃ more, account.later more last ∧
          account.Good more ((evaluate limit program Store.root).runFrom before).2 ∧
          ∀ value, ((evaluate limit program Store.root).runFrom before).1 = .ok value →
            account.Settles .program more value := by
  induction sources generalizing known store with
  | nil => exact ⟨known, account.refl known, fun program before runs => by cases runs⟩
  | cons source rest ih =>
    cases accepted : parse source with
    | error reason =>
      have kept : (runWithin limit source Store.root store).2 = store := by
        rw [runWithin, accepted]
      have again : ∀ program before, RunsAmong limit store rest program before →
          RunsAmong limit store (source :: rest) program before :=
        fun program before runs => .later (by rw [kept]; exact runs)
      obtain ⟨last, onward, each⟩ := ih good fun program before runs =>
        assumed program before (again program before runs)
      refine ⟨last, onward, fun program before runs => ?_⟩
      cases runs with
      | here other => rw [accepted] at other; cases other
      | later runs => exact each program before (by rw [kept] at runs; exact runs)
    | ok program =>
      have ran : (runWithin limit source Store.root store).2 =
          ((evaluate limit program Store.root).runFrom store).2 := by
        rw [runWithin_of_parse accepted]
      obtain ⟨more, onward, goodAfter, settles, always⟩ :=
        Account.always_keeps allowed good (shaped accepted) (assumed program store (.here accepted))
      obtain ⟨last, further, each⟩ := ih (ran ▸ goodAfter) fun program before runs =>
        assumed program before (.later runs)
      refine ⟨last, account.trans onward further, fun other before runs => ?_⟩
      cases runs with
      | here parsed =>
        obtain rfl : program = other := by
          rw [accepted] at parsed
          exact Except.ok.inj parsed
        exact ⟨always last further, more, further, goodAfter, settles⟩
      | later runs => exact each other before runs

end Session

end Scriptlet
