/-
**Whole evaluations keep to a policy.**

* `Policy.Evaluators`: two ways to evaluate trees and to apply callees that agree and keep to the
  policy.
* `Policy.Allows`: the moments that a policy allows.

Main statements: `Policy.Evaluators.step_agree`, one level of evaluation keeps to the policy if the
evaluation of the parts and the calls do, with one lemma for each kind of node; from it, by
induction on the limit, `Policy.evaluate_agree` and `Policy.apply_agree`: whole evaluations keep to
the policy and meet only moments that it allows. A fact about all evaluations is a policy of its
own; only these two modules follow the rules of evaluation one by one.
-/
import Scriptlet.Proofs.Evaluation.Policy
import Scriptlet.Proofs.Evaluation.Watch

namespace Scriptlet.Policy

attribute [local simp] Tree.consumed Tree.operands Tree.label?

variable {policy : Policy} {store : Store}

/-! ### One level of evaluation -/

/-- Two ways to evaluate trees and to apply callees that agree and keep to the policy. -/
structure Evaluators (policy : Policy) (evaluate evaluate' : Tree → ScopeId → Eval Value)
    (apply apply' : Value → List Value → Eval Value) : Prop where
  evaluates : ∀ {store scope tree}, policy.good store → policy.admits store scope tree →
    policy.toTerms.Agree (policy.Yields tree) store (evaluate tree scope) (evaluate' tree scope)
  applies : ∀ {store callee arguments}, policy.good store → policy.held store callee →
    (∀ argument ∈ arguments, policy.held store argument) →
    policy.Agree store (apply callee arguments) (apply' callee arguments)

/-- A part whose value is used delivers one. -/
theorem Yields.delivers {scope : ScopeId} {tree part : Tree}
    (admitted : policy.admits store scope tree) (used : part ∈ tree.consumed) {after : Store}
    {value : Value} (yielded : policy.Yields part after value) : policy.Delivers after value := by
  cases yielded with
  | settled settled => exact .settled settled
  | returned identity _ held => exact .returned identity held
  | nothing silent =>
    rcases policy.consumed admitted used with expression | nothing
    · rw [silent] at expression
      cases expression
    · exact .settled (.held (nothing after))

/-- Where evaluations settle on a value, they deliver one. -/
theorem Agree.delivers {first second : Eval Value} (agree : policy.Agree store first second) :
    policy.toTerms.Agree policy.Delivers store first second :=
  agree.weaken fun _ _ _ _ => .settled

section Step

variable {evaluate evaluate' : Tree → ScopeId → Eval Value}
  {apply apply' : Value → List Value → Eval Value} {scope : ScopeId}

/-- A signal ends what is evaluated; otherwise the value may be held, and the rest follows. -/
theorem unlessSignal_agree {ends : Store → Value → Prop} (good : policy.good store) {value : Value}
    (delivered : policy.Delivers store value)
    (signal : policy.Delivers store value → ends store value) {rest rest' : Eval Value}
    (follows : policy.held store value → policy.toTerms.Agree ends store rest rest') :
    policy.toTerms.Agree ends store (Eval.unlessSignal value rest)
      (Eval.unlessSignal value rest') := by
  unfold Eval.unlessSignal
  split
  · exact .pure good (signal delivered)
  next plain =>
    exact follows (delivered.held_of_isSignal_eq_false (by simpa using plain))

/-- What is gathered from trees: values that may be held, or a signal alone. -/
def Gathers (policy : Policy) (store : Store) : Value ⊕ List Value → Prop
  | .inl signal => policy.Delivers store signal
  | .inr values => ∀ value ∈ values, policy.held store value

theorem identifier_agree (good : policy.good store) (scope : ScopeId) (name : String) :
    policy.Agree store (Eval.identifier scope name) (Eval.identifier scope name) := by
  unfold Eval.identifier
  refine .bind (.get good) ?_
  rintro after _ good moves ⟨rfl, rfl⟩
  split
  next value found => exact .pure good (.held (policy.lookup good found))
  · split
    · exact .pure good (.held (policy.builtin _))
    · exact complain_agree good _

namespace Evaluators

variable (evaluators : policy.Evaluators evaluate evaluate' apply apply')

include evaluators

/-- A part whose value is used delivers one. -/
theorem used_agree (good : policy.good store) {tree : Tree}
    (admitted : policy.admits store scope tree) (part : Tree) (used : part ∈ tree.consumed) :
    policy.toTerms.Agree policy.Delivers store (evaluate part scope) (evaluate' part scope) :=
  (evaluators.evaluates good
    (policy.operand admitted (Tree.mem_operands_of_mem_consumed used))).weaken
      fun _ _ _ _ yielded => yielded.delivers admitted used

/-- Statements deliver a value, or yield none. -/
theorem statements_agree (good : policy.good store) {parts : List Tree}
    (admitted : ∀ part ∈ parts, policy.admits store scope part) {last : Value}
    (yielded : policy.Delivers store last ∨ last = .nothing) :
    policy.toTerms.Agree (fun after value => policy.Delivers after value ∨ value = .nothing) store
      (Eval.statements evaluate scope last parts)
      (Eval.statements evaluate' scope last parts) := by
  induction parts generalizing store last with
  | nil => exact .pure good yielded
  | cons part rest ih =>
    unfold Eval.statements
    refine .bind (evaluators.evaluates good (admitted part List.mem_cons_self)) ?_
    intro after value good moves yielded
    have yielded : policy.Delivers after value ∨ value = .nothing := by
      cases yielded with
      | settled settled => exact Or.inl (.settled settled)
      | returned identity _ held => exact Or.inl (.returned identity held)
      | nothing => exact Or.inr rfl
    unfold Eval.unlessSignal
    split
    · exact .pure good yielded
    · refine ih good (fun part member => ?_) yielded
      exact policy.admits_moves moves (admitted part (List.mem_cons_of_mem _ member))

theorem values_agree (good : policy.good store) {tree : Tree}
    (admitted : policy.admits store scope tree) {parts : List Tree}
    (used : ∀ part ∈ parts, part ∈ tree.consumed) :
    policy.toTerms.Agree (Gathers policy) store (Eval.values evaluate scope parts)
      (Eval.values evaluate' scope parts) := by
  induction parts generalizing store with
  | nil => exact .pure good fun value member => by cases member
  | cons part rest ih =>
    unfold Eval.values
    refine .bind (evaluators.used_agree good admitted part (used part List.mem_cons_self)) ?_
    intro after value good moves delivered
    split
    · exact .pure good delivered
    next plain =>
      have held := delivered.held_of_isSignal_eq_false (by simpa using plain)
      refine .bind (ih good (policy.admits_moves moves admitted)
        fun part member => used part (List.mem_cons_of_mem _ member)) ?_
      intro final result good further gathered
      cases result with
      | inl signal => exact .pure good gathered
      | inr others =>
        refine .pure good fun other member => ?_
        rcases List.mem_cons.mp member with rfl | member
        · exact policy.held_moves further held
        · exact gathered other member

theorem expressing_agree (good : policy.good store) {parts : List Tree}
    (admitted : policy.admits store scope (.node .expressionStatement parts)) :
    policy.toTerms.Agree (policy.Yields (.node .expressionStatement parts)) store
      (Eval.firstPart evaluate scope parts) (Eval.firstPart evaluate' scope parts) := by
  unfold Eval.firstPart
  split
  next part rest =>
    refine (evaluators.evaluates good (policy.operand admitted List.mem_cons_self)).weaken ?_
    intro after value _ _ yielded
    cases yielded with
    | settled settled => exact .settled settled
    | returned identity _ held => exact .returned identity (by simp) held
    | nothing => exact .nothing rfl
  · exact .throw good (policy.flaw admitted (.noChild (by simp)))

theorem binding_agree (good : policy.good store) {parts : List Tree}
    (admitted : policy.admits store scope (.node .letStatement parts)) :
    policy.toTerms.Agree (policy.Yields (.node .letStatement parts)) store
      (Eval.binding evaluate scope parts) (Eval.binding evaluate' scope parts) := by
  unfold Eval.binding
  split
  next name part =>
    refine .bind (evaluators.used_agree good admitted part
      (by simp)) ?_
    intro after value good moves delivered
    refine unlessSignal_agree good delivered (fun last => last.yields (by simp))
      fun held => ?_
    refine .bind (.lift good fun fault failed => policy.flaw admitted (.noName failed)) ?_
    rintro after text good - ⟨rfl, read⟩
    have bound := policy.bind good
      (policy.binds_moves moves (policy.named admitted read)) held
    refine .bind (.modify bound.1 bound.2) ?_
    intro final _ good _ _
    exact .pure good (.nothing rfl)
  next others => exact .throw good (policy.flaw admitted (.notTwo (by simp) others))

theorem returning_agree (good : policy.good store) {parts : List Tree}
    (admitted : policy.admits store scope (.node .returnStatement parts)) :
    policy.toTerms.Agree policy.Delivers store (Eval.returning evaluate scope parts)
      (Eval.returning evaluate' scope parts) := by
  unfold Eval.returning Eval.firstPart
  cases parts with
  | nil =>
    have failed : policy.toTerms.Agree (fun _ (_ : Value) => False) store (throw .childMissing)
        (throw .childMissing) := .throw good (policy.flaw admitted (.noChild (by simp)))
    exact failed.bind fun _ _ _ _ impossible => impossible.elim
  | cons part rest =>
    refine .bind (evaluators.used_agree good admitted part List.mem_cons_self) ?_
    intro after value good _ delivered
    refine unlessSignal_agree good delivered id fun held => ?_
    exact identified_agree good fun final identity moves =>
      .returned identity (policy.held_moves moves held)

theorem unary_agree (good : policy.good store) {parts : List Tree}
    (admitted : policy.admits store scope (.node .unary parts)) :
    policy.toTerms.Agree policy.Delivers store (Eval.unary evaluate scope parts)
      (Eval.unary evaluate' scope parts) := by
  unfold Eval.unary
  split
  next operator part =>
    refine .bind (evaluators.used_agree good admitted part
      (by simp)) ?_
    intro after value good moves delivered
    refine unlessSignal_agree good delivered id fun held => ?_
    refine .bind (.lift good fun fault failed => policy.flaw admitted (.noUnary failed)) ?_
    rintro after text good - ⟨rfl, -⟩
    exact (applyUnary_agree good text held).delivers
  next others => exact .throw good (policy.flaw admitted (.notTwo (by simp) others))

theorem binary_agree (good : policy.good store) {parts : List Tree}
    (admitted : policy.admits store scope (.node .binary parts)) :
    policy.toTerms.Agree policy.Delivers store (Eval.binary evaluate scope parts)
      (Eval.binary evaluate' scope parts) := by
  unfold Eval.binary
  split
  next first operator second =>
    refine .bind (evaluators.used_agree good admitted first
      (by simp)) ?_
    intro middle left good moves delivered
    refine unlessSignal_agree good delivered id fun leftHeld => ?_
    refine .bind (evaluators.used_agree good (policy.admits_moves moves admitted) second
      (by simp)) ?_
    intro after right good moves delivered
    refine unlessSignal_agree good delivered id fun rightHeld => ?_
    refine .bind (.lift good fun fault failed => policy.flaw admitted (.noBinary failed)) ?_
    rintro after text good - ⟨rfl, -⟩
    exact (applyBinary_agree good text (policy.held_moves moves leftHeld) rightHeld).delivers
  next others => exact .throw good (policy.flaw admitted (.notThree others))

theorem index_agree (good : policy.good store) {parts : List Tree}
    (admitted : policy.admits store scope (.node .index parts)) :
    policy.toTerms.Agree policy.Delivers store (Eval.index evaluate scope parts)
      (Eval.index evaluate' scope parts) := by
  unfold Eval.index
  split
  next first second =>
    refine .bind (evaluators.used_agree good admitted first
      (by simp)) ?_
    intro middle container good moves delivered
    refine unlessSignal_agree good delivered id fun held => ?_
    refine .bind (evaluators.used_agree good (policy.admits_moves moves admitted) second
      (by simp)) ?_
    intro after position good moves delivered
    refine unlessSignal_agree good delivered id fun _ => ?_
    exact (applyIndex_agree good (policy.held_moves moves held) position).delivers
  next others => exact .throw good (policy.flaw admitted (.notTwo (by simp) others))

theorem conditional_agree (good : policy.good store) {parts : List Tree}
    (admitted : policy.admits store scope (.node .conditional parts)) :
    policy.toTerms.Agree policy.Delivers store (Eval.conditional evaluate scope parts)
      (Eval.conditional evaluate' scope parts) := by
  unfold Eval.conditional
  split
  next condition consequence rest =>
    refine .bind (evaluators.used_agree good admitted condition
      (by simp)) ?_
    intro after value good moves delivered
    refine unlessSignal_agree good delivered id fun held => ?_
    have branch : ∀ part ∈ consequence :: rest, policy.toTerms.Agree policy.Delivers after
        (do return (← evaluate part scope).orNull) (do return (← evaluate' part scope).orNull) := by
      intro part member
      refine .bind (evaluators.evaluates good (policy.operand (policy.admits_moves moves admitted)
        (List.mem_cons_of_mem _ member))) fun final result good _ yielded => ?_
      exact .pure good yielded.orNull
    split
    · exact branch consequence List.mem_cons_self
    · split
      · exact .pure good (.settled (.held policy.null))
      next alternative there =>
        refine branch _ (List.mem_cons_of_mem _ ?_)
        cases rest with
        | nil => exact absurd rfl there
        | cons first others => exact List.mem_cons_self
  next others => exact .throw good (policy.flaw admitted (.belowTwo others))

theorem application_agree (good : policy.good store) {parts : List Tree}
    (admitted : policy.admits store scope (.node .call parts)) :
    policy.toTerms.Agree policy.Delivers store (Eval.application evaluate apply scope parts)
      (Eval.application evaluate' apply' scope parts) := by
  unfold Eval.application
  split
  next first second =>
    refine .bind (evaluators.used_agree good admitted first
      (by simp)) ?_
    intro middle callee good moves delivered
    refine unlessSignal_agree good delivered id fun held => ?_
    refine .bind (evaluators.values_agree good (policy.admits_moves moves admitted)
      fun part member => by simp [member]) ?_
    intro after result good further gathered
    cases result with
    | inl signal => exact .pure good gathered
    | inr arguments =>
      exact (evaluators.applies good (policy.held_moves further held) gathered).delivers
  next others => exact .throw good (policy.flaw admitted (.notTwo (by simp) others))

theorem array_agree (good : policy.good store) {parts : List Tree}
    (admitted : policy.admits store scope (.node .array parts)) :
    policy.toTerms.Agree policy.Delivers store (Eval.array evaluate scope parts)
      (Eval.array evaluate' scope parts) := by
  unfold Eval.array
  refine .bind (evaluators.values_agree good admitted fun part member => member) ?_
  intro after result good _ gathered
  cases result with
  | inl signal => exact .pure good gathered
  | inr elements =>
    refine identified_agree good fun final identity moves =>
      .settled (.held (policy.array identity ?_))
    intro element member
    exact policy.held_moves moves (gathered element member)

theorem pairs_agree (good : policy.good store) {all parts : List Tree}
    (admitted : policy.admits store scope (.node .hash all)) (within : ∀ part ∈ parts, part ∈ all)
    {done : List (Value × Value)}
    (held : ∀ pair ∈ done, policy.held store pair.1 ∧ policy.held store pair.2) :
    policy.toTerms.Agree policy.Delivers store (Eval.pairs evaluate scope done parts)
      (Eval.pairs evaluate' scope done parts) := by
  induction parts generalizing store done with
  | nil =>
    refine identified_agree good fun after identity moves =>
      .settled (.held (policy.hash identity ?_))
    intro pair member
    exact (held pair member).imp (policy.held_moves moves) (policy.held_moves moves)
  | cons pair rest ih =>
    have here : pair ∈ all := within pair List.mem_cons_self
    unfold Eval.pairs
    split
    next first second children =>
      have used : ∀ part ∈ [first, second], part ∈ (Tree.node .hash all).consumed := by
        intro part member
        exact List.mem_flatMap.mpr ⟨pair, here, children ▸ member⟩
      refine .bind (evaluators.used_agree good admitted first (used first (by simp))) ?_
      intro middle key good moves delivered
      have admitted := policy.admits_moves moves admitted
      refine unlessSignal_agree good delivered id fun keyHeld => ?_
      split
      · exact (complain_tagOf_agree good keyHeld _).delivers
      refine .bind (evaluators.used_agree good admitted second (used second (by simp))) ?_
      intro after value good further delivered
      refine unlessSignal_agree good delivered id fun valueHeld => ?_
      have onward := policy.trans moves further
      refine ih good (policy.admits_moves further admitted)
        (fun part member => within part (List.mem_cons_of_mem _ member)) fun pair member => ?_
      rcases Value.mem_putPair member with rfl | old
      · exact ⟨policy.held_moves further keyHeld, valueHeld⟩
      · exact (held pair old).imp (policy.held_moves onward) (policy.held_moves onward)
    next others => exact .throw good (policy.flaw admitted (.noPair here others))

/-- **One level of evaluation keeps to the policy**, if the evaluation of the parts and calls do. -/
theorem step_agree (good : policy.good store) {tree : Tree}
    (admitted : policy.admits store scope tree) :
    policy.toTerms.Agree (policy.Yields tree) store (Eval.step evaluate apply scope tree)
      (Eval.step evaluate' apply' scope tree) := by
  cases tree with
  | leaf token => exact .pure good (.nothing rfl)
  | absent => exact .pure good (.nothing rfl)
  | node label parts =>
    have settles : ∀ {first second : Eval Value}, policy.Agree store first second →
        policy.toTerms.Agree (policy.Yields (.node label parts)) store first second :=
      fun agree => agree.weaken fun _ _ _ _ => .settled
    have delivers : label ≠ .program → ∀ {first second : Eval Value},
        policy.toTerms.Agree policy.Delivers store first second →
        policy.toTerms.Agree (policy.Yields (.node label parts)) store first second :=
      fun inner _ _ agree => agree.weaken fun _ _ _ _ delivered =>
        delivered.yields (by simpa using inner)
    -- the nodes with a token of their own read it first
    have read : label ∈ [.identifier, .integer, .string, .boolean] →
        ∀ {next next' : String → Eval Value},
        (∀ text, Tree.tokenText (.node label parts) = .ok text →
          policy.Agree store (next text) (next' text)) →
        policy.Agree store (liftM (Tree.tokenText (.node label parts)) >>= next)
          (liftM (Tree.tokenText (.node label parts)) >>= next') := by
      intro own next next' follows
      refine .bind (.lift good fun fault failed => policy.flaw admitted (.noToken own failed)) ?_
      rintro after text _ _ ⟨rfl, found⟩
      exact follows text found
    have parted : ∀ part ∈ (Tree.node label parts).operands, policy.admits store scope part :=
      fun part member => policy.operand admitted member
    cases label with
    | program =>
      refine .bind (evaluators.statements_agree good parted (.inr rfl)) ?_
      intro after value good _ yielded
      rcases yielded with delivered | rfl
      · exact .pure good (.settled delivered.operand)
      · exact .pure good (.nothing rfl)
    | block =>
      refine (evaluators.statements_agree good parted (.inr rfl)).weaken ?_
      intro after value _ _ yielded
      rcases yielded with delivered | rfl
      · exact delivered.yields (by simp)
      · exact .nothing rfl
    | expressionStatement => exact evaluators.expressing_agree good admitted
    | letStatement => exact evaluators.binding_agree good admitted
    | returnStatement => exact delivers (by simp) (evaluators.returning_agree good admitted)
    | identifier =>
      exact settles (read (by simp) fun text _ => identifier_agree good scope text)
    | integer =>
      refine settles (read (by simp) fun text found => ?_)
      split
      next number value => exact .pure good (.held (policy.literal admitted found value))
      next reason failed => exact .throw good (policy.flaw admitted (.misread found failed))
    | string =>
      refine settles (read (by simp) fun text _ => ?_)
      exact identified_agree good fun _ _ _ => .held (policy.string _ _)
    | boolean =>
      exact settles (read (by simp) fun text _ => .pure good (.held (policy.boolean _)))
    | unary => exact delivers (by simp) (evaluators.unary_agree good admitted)
    | binary => exact delivers (by simp) (evaluators.binary_agree good admitted)
    | index => exact delivers (by simp) (evaluators.index_agree good admitted)
    | conditional => exact delivers (by simp) (evaluators.conditional_agree good admitted)
    | function =>
      refine settles ?_
      simp only [Eval.step]
      unfold Eval.function
      split
      next parameters body =>
        refine identified_agree good fun after identity moves => .held ?_
        exact policy.held_moves moves (policy.function good admitted _ _)
      next others => exact .throw good (policy.flaw admitted (.notTwo (by simp) others))
    | call => exact delivers (by simp) (evaluators.application_agree good admitted)
    | array => exact delivers (by simp) (evaluators.array_agree good admitted)
    | hash =>
      refine delivers (by simp) (evaluators.pairs_agree good admitted (fun _ member => member) ?_)
      exact fun pair member => by cases member
    | parameters | arguments | pair | other => exact .pure good (.nothing rfl)

end Evaluators

end Step

/-! ### Whole evaluations -/

/-- The moments that a policy allows. -/
def Allows (policy : Policy) : Moment → Store → Prop
  | .entered tree scope, store => policy.good store ∧ policy.admits store scope tree
  | .yielded tree value, store => policy.good store ∧ policy.Yields tree store value
  | .applied callee arguments, store => policy.good store ∧ policy.held store callee ∧
    ∀ argument ∈ arguments, policy.held store argument

section Watched

variable {permits : Moment → Store → Prop} (alarm : Fault)
variable (allowed : ∀ moment store, policy.Allows moment store → permits moment store)

include allowed

/-- A watched call keeps to the policy, if the evaluation of bodies does. -/
theorem callWatched_agree {inspect : Value → Except Fault String}
    (inspects : policy.Inspects inspect) {evaluate evaluate' : Tree → ScopeId → Eval Value}
    (evaluates : ∀ {store scope tree}, policy.good store → policy.admits store scope tree →
      policy.toTerms.Agree (policy.Yields tree) store (evaluate tree scope) (evaluate' tree scope))
    (good : policy.good store) {callee : Value} (calleeHeld : policy.held store callee)
    {arguments : List Value} (held : ∀ argument ∈ arguments, policy.held store argument) :
    policy.Agree store (Eval.callWatched permits alarm inspect evaluate callee arguments)
      (Eval.call inspect evaluate' callee arguments) :=
  .watched permits alarm (allowed (.applied callee arguments) store ⟨good, calleeHeld, held⟩)
    (call_agree inspects evaluates good calleeHeld held)

/-- **Every evaluation keeps to the policy, and meets only moments that the policy allows.** -/
theorem evaluate_agree (limit : Nat) {scope : ScopeId} {tree : Tree} (good : policy.good store)
    (admitted : policy.admits store scope tree) :
    policy.toTerms.Agree (policy.Yields tree) store
      (evaluateWatched permits alarm limit tree scope) (evaluate limit tree scope) := by
  induction limit generalizing store scope tree with
  | zero => exact .throw good policy.nesting
  | succ limit ih =>
    have evaluators : policy.Evaluators (evaluateWatched permits alarm limit) (evaluate limit)
        (Eval.callWatched permits alarm (Value.inspectWithin limit)
          (evaluateWatched permits alarm limit))
        (Eval.call (Value.inspectWithin limit) (evaluate limit)) :=
      ⟨ih, fun good callee =>
        callWatched_agree alarm allowed (policy.inspects_within limit) ih good callee⟩
    exact .level permits alarm (allowed (.entered tree scope) store ⟨good, admitted⟩)
      (fun after value good yielded => allowed (.yielded tree value) after ⟨good, yielded⟩)
      (evaluators.step_agree good admitted)

/-- **Every application keeps to the policy, and meets only moments that the policy allows.** -/
theorem apply_agree (limit : Nat) (good : policy.good store) {callee : Value}
    (calleeHeld : policy.held store callee) {arguments : List Value}
    (held : ∀ argument ∈ arguments, policy.held store argument) :
    policy.Agree store (applyWatched permits alarm limit callee arguments)
      (apply limit callee arguments) :=
  callWatched_agree alarm allowed (policy.inspects_within limit)
    (evaluate_agree alarm allowed limit) good calleeHeld held

end Watched

end Scriptlet.Policy
