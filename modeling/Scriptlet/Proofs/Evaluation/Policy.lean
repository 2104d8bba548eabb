/-
**Policies: what every evaluation of a tree keeps.**

A policy says which trees may be evaluated on which scopes, which values may be held, which names
may be bound where, how stores may change, and which faults may arise. Its laws ask only that each
single thing an evaluation does keeps to it: a name bound, a scope entered, a value made, an
element taken.

* `Policy`, with its laws.
* `Policy.Settles`, `Policy.Delivers`, `Policy.Yields`: what calls, used parts and trees may yield.
* `Policy.Inspects`: texts of values that keep to a policy.

Main statements: what an operator, a builtin or a call does keeps to the policy when its operands
may be held (`applyUnary_agree`, `applyBinary_agree`, `applyIndex_agree`, `callBuiltin_agree`,
`call_agree`). The next module goes from there to whole evaluations.
-/
import Scriptlet.Proofs.Evaluation.Terms
import Scriptlet.Proofs.Tree.Parts

namespace Scriptlet

/-- What may be evaluated, held and bound, with the laws that single steps keep. -/
structure Policy extends Terms where
  /-- The trees that may be evaluated on a scope. -/
  admits : Store → ScopeId → Tree → Prop
  /-- The values that may be held: bound, put in arrays and hashes, given to callees. -/
  held : Store → Value → Prop
  /-- The names that may be bound on a scope. -/
  binds : Store → ScopeId → String → Prop
  admits_moves : ∀ {store after scope tree}, moves store after → admits store scope tree →
    admits after scope tree
  held_moves : ∀ {store after value}, moves store after → held store value → held after value
  binds_moves : ∀ {store after scope name}, moves store after → binds store scope name →
    binds after scope name
  bind : ∀ {store scope name value}, good store → binds store scope name → held store value →
    good (store.bind scope name value) ∧ moves store (store.bind scope name value)
  identify : ∀ {store}, good store → good store.identify.2 ∧ moves store store.identify.2
  print : ∀ {store} line, good store → good (store.print line) ∧ moves store (store.print line)
  /-- The body of a function may be evaluated on a new scope, and any name bound there. -/
  enter : ∀ {store identity parameters body scope}, good store →
    held store (.function identity parameters body scope) →
    good (store.enclose (some scope)).2 ∧ moves store (store.enclose (some scope)).2 ∧
      admits (store.enclose (some scope)).2 (store.enclose (some scope)).1 body ∧
      ∀ name, binds (store.enclose (some scope)).2 (store.enclose (some scope)).1 name
  lookup : ∀ {store scope name value}, good store → store.lookup? scope name = some value →
    held store value
  operand : ∀ {store scope tree part}, admits store scope tree → part ∈ tree.operands →
    admits store scope part
  /-- A part whose value is used stands for one, unless no value may be held as well. -/
  consumed : ∀ {store scope tree part}, admits store scope tree → part ∈ tree.consumed →
    part.isExpression = true ∨ ∀ after, held after .nothing
  named : ∀ {store scope name value text}, admits store scope (.node .letStatement [name, value]) →
    name.tokenText = .ok text → binds store scope text
  literal : ∀ {store scope parts text number},
    admits store scope (.node .integer parts) → Tree.tokenText (.node .integer parts) = .ok text →
      Number.read text = .ok number → held store (.integer number)
  function : ∀ {store scope parameters body}, good store →
    admits store scope (.node .function [parameters, body]) → ∀ identity names,
      held store (.function identity names body scope)
  null : ∀ {store}, held store .null
  boolean : ∀ {store} truth, held store (.boolean truth)
  builtin : ∀ {store} builtin, held store (.builtin builtin)
  string : ∀ {store} identity text, held store (.string identity text)
  wrapped : ∀ {store} number, held store (.integer (Number.wrap number))
  measured : ∀ {store} (length : Nat), held store (.integer length)
  array : ∀ {store} identity {elements}, (∀ element ∈ elements, held store element) →
    held store (.array identity elements)
  hash : ∀ {store} identity {pairs},
    (∀ pair ∈ pairs, held store pair.1 ∧ held store pair.2) → held store (.hash identity pairs)
  element : ∀ {store identity elements element}, held store (.array identity elements) →
    element ∈ elements → held store element
  returned : ∀ {store identity operand}, held store (.returned identity operand) →
    held store operand
  division : faults .divisionByZero
  nesting : faults .nestingTooDeep
  flaw : ∀ {store scope tree fault}, admits store scope tree → tree.Flaw fault → faults fault
  inspect : ∀ {store value fault}, held store value → value.inspect = .error fault → faults fault

namespace Policy

variable (policy : Policy)

/-- What an operator or a call may yield: a value that may be held, or a runtime error. -/
inductive Settles (store : Store) : Value → Prop
  | held {value : Value} : policy.held store value → Settles store value
  | error (identity : Nat) (complaint : Complaint) : Settles store (.error identity complaint)

/-- What a tree may yield whose value is used: the same, or a returned operand that may be held. -/
inductive Delivers (store : Store) : Value → Prop
  | settled {value : Value} : policy.Settles store value → Delivers store value
  | returned (identity : Nat) {operand : Value} : policy.held store operand →
      Delivers store (.returned identity operand)

/-- What any tree may yield: the same, or no value if the tree stands for none. A program takes
returned operands out. -/
inductive Yields (tree : Tree) (store : Store) : Value → Prop
  | settled {value : Value} : policy.Settles store value → Yields tree store value
  | returned (identity : Nat) {operand : Value} : tree.label? ≠ some .program →
      policy.held store operand → Yields tree store (.returned identity operand)
  | nothing : tree.isExpression = false → Yields tree store .nothing

/-- From a store, two evaluations agree and keep to the policy, and settle on a value. -/
abbrev Agree (store : Store) (first second : Eval Value) : Prop :=
  policy.toTerms.Agree policy.Settles store first second

variable {policy} {store : Store}

namespace Settles

variable {value : Value}

theorem held_of_isSignal_eq_false (settled : policy.Settles store value)
    (plain : value.isSignal = false) : policy.held store value := by
  cases settled with
  | held held => exact held
  | error => simp [Value.isSignal] at plain

/-- An operand taken out of a value that may be held may be held. -/
theorem operand (settled : policy.Settles store value) : policy.Settles store value.operand := by
  cases settled with
  | held held =>
    cases value with
    | returned => exact .held (policy.returned held)
    | _ => exact .held held
  | error => exact .error _ _

theorem orNull (settled : policy.Settles store value) : policy.Settles store value.orNull := by
  cases value with
  | nothing => exact .held policy.null
  | _ => exact settled

end Settles

namespace Delivers

variable {value : Value}

/-- What is delivered and is no signal may be held. -/
theorem held_of_isSignal_eq_false (delivered : policy.Delivers store value)
    (plain : value.isSignal = false) : policy.held store value := by
  cases delivered with
  | settled settled => exact settled.held_of_isSignal_eq_false plain
  | returned => simp [Value.isSignal] at plain

/-- A returned operand, taken out, may be held. -/
theorem operand (delivered : policy.Delivers store value) :
    policy.Settles store value.operand := by
  cases delivered with
  | settled settled => exact settled.operand
  | returned _ held => exact .held held

theorem yields {tree : Tree} (delivered : policy.Delivers store value)
    (inner : tree.label? ≠ some .program) : policy.Yields tree store value := by
  cases delivered with
  | settled settled => exact .settled settled
  | returned identity held => exact .returned identity inner held

end Delivers

namespace Yields

variable {tree : Tree} {value : Value}

/-- A branch delivers a value, null standing for none. -/
theorem orNull (yielded : policy.Yields tree store value) :
    policy.Delivers store value.orNull := by
  cases yielded with
  | settled settled => exact .settled settled.orNull
  | returned identity _ held => exact .returned identity held
  | nothing => exact .settled (.held policy.null)

/-- A call takes a returned operand out, and null stands for no value. -/
theorem unwrap (yielded : policy.Yields tree store value) :
    policy.Settles store value.unwrap := by
  cases yielded with
  | settled settled =>
    cases value with
    | nothing => exact .held policy.null
    | _ => exact settled.operand
  | returned _ _ held => exact .held held
  | nothing => exact .held policy.null

end Yields

/-! ### Operators and builtins -/

/-- A value with an identity of its own. -/
theorem identified_agree {ends : Store → Value → Prop} (good : policy.good store)
    {make : Nat → Value}
    (made : ∀ after identity, policy.moves store after → ends after (make identity)) :
    policy.toTerms.Agree ends store (Eval.identified make) (Eval.identified make) := by
  have fresh := policy.identify good
  refine .bind (.modifyGet fresh.1 fresh.2) ?_
  intro after identity good moves _
  exact .pure good (made after identity moves)

theorem complain_agree (good : policy.good store) (complaint : Complaint) :
    policy.Agree store (Eval.complain complaint) (Eval.complain complaint) :=
  identified_agree good fun _ identity _ => .error identity complaint

/-- A value that may be held has a type, or its lack of one is a fault that may arise. -/
theorem tagOf_agree (good : policy.good store) {value : Value} (held : policy.held store value) :
    policy.toTerms.Agree (fun _ _ => True) store (Eval.tagOf value) (Eval.tagOf value) := by
  unfold Eval.tagOf
  split
  · exact .pure good trivial
  next missing =>
    refine .throw good (policy.inspect held ?_)
    cases value <;> first | rfl | simp [Value.tag?] at missing

/-- A complaint about the type of a value, if it has one. -/
theorem complain_tagOf_agree (good : policy.good store) {value : Value}
    (held : policy.held store value) (complaint : Tag → Complaint) :
    policy.Agree store (do Eval.complain (complaint (← Eval.tagOf value)))
      (do Eval.complain (complaint (← Eval.tagOf value))) :=
  .bind (tagOf_agree good held) fun _ tag good _ _ => complain_agree good (complaint tag)

theorem applyUnary_agree (good : policy.good store) (operator : String) {right : Value}
    (held : policy.held store right) :
    policy.Agree store (Eval.applyUnary operator right) (Eval.applyUnary operator right) := by
  unfold Eval.applyUnary
  split
  · exact .pure good (.held (policy.boolean _))
  · exact .pure good (.held (policy.wrapped _))
  · exact complain_tagOf_agree good held _

theorem combineIntegers_agree (good : policy.good store) (left right : Int)
    (operator : BinaryOperator) :
    policy.Agree store (Eval.combineIntegers left right operator)
      (Eval.combineIntegers left right operator) := by
  cases operator with
  | divide =>
    simp only [Eval.combineIntegers]
    split
    · exact .throw good policy.division
    · exact .pure good (.held (policy.wrapped _))
  | add | subtract | multiply => exact .pure good (.held (policy.wrapped _))
  | less | greater | equal | differ => exact .pure good (.held (policy.boolean _))

theorem applyBinary_agree (good : policy.good store) (operator : String) {left right : Value}
    (leftHeld : policy.held store left) (rightHeld : policy.held store right) :
    policy.Agree store (Eval.applyBinary operator left right)
      (Eval.applyBinary operator left right) := by
  unfold Eval.applyBinary
  refine .bind (tagOf_agree good leftHeld) fun _ leftTag good moves _ => ?_
  refine .bind (tagOf_agree good (policy.held_moves moves rightHeld)) fun _ rightTag good _ _ => ?_
  split
  · exact combineIntegers_agree good _ _ _
  · exact .pure good (.held (policy.boolean _))
  · exact .pure good (.held (policy.boolean _))
  · exact identified_agree good fun _ _ _ => .held (policy.string _ _)
  · split
    · exact complain_agree good _
    · exact complain_agree good _

theorem applyIndex_agree (good : policy.good store) {container : Value}
    (held : policy.held store container) (index : Value) :
    policy.Agree store (Eval.applyIndex container index) (Eval.applyIndex container index) := by
  unfold Eval.applyIndex
  split
  next elements position =>
    split
    · exact .pure good (.held policy.null)
    · refine .pure good (.held ?_)
      cases found : elements[position.toNat]? with
      | none => exact policy.null
      | some element => exact policy.element held (List.mem_of_getElem? found)
  · exact complain_tagOf_agree good held _

/-- A builtin that uses the elements of an array. -/
theorem withElements_agree (good : policy.good store) (builtin : Builtin) {value : Value}
    (held : policy.held store value) {use : List Value → Eval Value}
    (used : ∀ elements, (∀ element ∈ elements, policy.held store element) →
      policy.Agree store (use elements) (use elements)) :
    policy.Agree store (Eval.withElements builtin value use)
      (Eval.withElements builtin value use) := by
  unfold Eval.withElements
  split
  · exact used _ fun element member => policy.element held member
  · exact complain_tagOf_agree good held _

/-- The texts of values that may be held fail only in faults that may arise. -/
def Inspects (policy : Policy) (inspect : Value → Except Fault String) : Prop :=
  ∀ {store value fault}, policy.held store value → inspect value = .error fault →
    policy.faults fault

/-- Texts within a limit keep to every policy. -/
theorem inspects_within (policy : Policy) (limit : Nat) :
    policy.Inspects (Value.inspectWithin limit) := by
  intro store value fault held failed
  unfold Value.inspectWithin at failed
  split at failed
  · exact policy.inspect held failed
  · cases failed
    exact policy.nesting

section Texts

variable {inspect : Value → Except Fault String} (inspects : policy.Inspects inspect)

include inspects

theorem printAll_agree (good : policy.good store) {values : List Value}
    (held : ∀ value ∈ values, policy.held store value) :
    policy.toTerms.Agree (fun _ _ => True) store (Eval.printAll inspect values)
      (Eval.printAll inspect values) := by
  induction values generalizing store with
  | nil => exact .pure good trivial
  | cons value rest ih =>
    unfold Eval.printAll
    refine .bind (.lift good fun fault => inspects (held value List.mem_cons_self)) ?_
    intro middle text good moves _
    have printed := policy.print text good
    refine .bind (.modify printed.1 printed.2) ?_
    intro after _ good further _
    refine ih good fun value member => ?_
    exact policy.held_moves (policy.trans moves further) (held value (List.mem_cons_of_mem _ member))

/-- A builtin keeps to the policy when its arguments may be held. -/
theorem callBuiltin_agree (good : policy.good store) (builtin : Builtin) {arguments : List Value}
    (held : ∀ argument ∈ arguments, policy.held store argument) :
    policy.Agree store (Eval.callBuiltin inspect builtin arguments)
      (Eval.callBuiltin inspect builtin arguments) := by
  unfold Eval.callBuiltin
  split
  next value =>
    split
    · exact .pure good (.held (policy.measured _))
    · exact .pure good (.held (policy.measured _))
    · exact complain_tagOf_agree good (held value (by simp)) _
  next value =>
    refine withElements_agree good _ (held value (by simp)) fun elements each => ?_
    refine .pure good (.held ?_)
    cases found : elements.head? with
    | none => exact policy.null
    | some element => exact each element (List.mem_of_head? found)
  next value =>
    refine withElements_agree good _ (held value (by simp)) fun elements each => ?_
    refine .pure good (.held ?_)
    cases found : elements.getLast? with
    | none => exact policy.null
    | some element => exact each element (List.mem_of_getLast? found)
  next value =>
    refine withElements_agree good _ (held value (by simp)) fun elements each => ?_
    cases elements with
    | nil => exact .pure good (.held policy.null)
    | cons first others =>
      refine identified_agree good fun after identity moves => .held (policy.array _ ?_)
      intro element member
      exact policy.held_moves moves (each element (List.mem_cons_of_mem _ member))
  next value item =>
    refine withElements_agree good _ (held value (by simp)) fun elements each => ?_
    refine identified_agree good fun after identity moves => .held (policy.array _ ?_)
    intro element member
    rcases List.mem_append.mp member with member | member
    · exact policy.held_moves moves (each element member)
    · rw [List.mem_singleton.mp member]
      exact policy.held_moves moves (held item (by simp))
  · refine .bind (printAll_agree inspects good held) fun after _ good _ _ => ?_
    exact .pure good (.held policy.null)
  · exact complain_agree good _
  · exact complain_agree good _

/-! ### Calls -/

omit inspects in
/-- Names bound in turn on a scope where any name may be bound. -/
theorem bindAll_agree (good : policy.good store) {scope : ScopeId}
    (open_ : ∀ name, policy.binds store scope name) {bindings : List (String × Value)}
    (held : ∀ pair ∈ bindings, policy.held store pair.2) :
    policy.toTerms.Agree (fun _ _ => True) store (Eval.bindAll scope bindings)
      (Eval.bindAll scope bindings) := by
  induction bindings generalizing store with
  | nil => exact .pure good trivial
  | cons pair rest ih =>
    obtain ⟨name, value⟩ := pair
    unfold Eval.bindAll
    have bound := policy.bind good (open_ name) (held _ List.mem_cons_self)
    refine .bind (.modify bound.1 bound.2) ?_
    intro after _ good moves _
    refine ih good (fun name => policy.binds_moves moves (open_ name)) ?_
    intro pair member
    exact policy.held_moves moves (held pair (List.mem_cons_of_mem _ member))

/-- **A call keeps to the policy**, if the evaluation of bodies does. -/
theorem call_agree {evaluate evaluate' : Tree → ScopeId → Eval Value}
    (evaluates : ∀ {store scope tree}, policy.good store → policy.admits store scope tree →
      policy.toTerms.Agree (policy.Yields tree) store (evaluate tree scope) (evaluate' tree scope))
    (good : policy.good store) {callee : Value} (calleeHeld : policy.held store callee)
    {arguments : List Value} (held : ∀ argument ∈ arguments, policy.held store argument) :
    policy.Agree store (Eval.call inspect evaluate callee arguments)
      (Eval.call inspect evaluate' callee arguments) := by
  unfold Eval.call
  split
  next identity parameters body scope =>
    have enters := policy.enter good calleeHeld
    refine .bind (.modifyGet enters.1 enters.2.1) ?_
    rintro inside inner good moves ⟨rfl, rfl⟩
    refine .bind (bindAll_agree good enters.2.2.2 ?_) fun bound _ good further _ => ?_
    · intro pair member
      exact policy.held_moves moves (held _ (List.of_mem_zip member).2)
    · refine .bind (evaluates good (policy.admits_moves further enters.2.2.1)) ?_
      intro after result good _ yielded
      exact .pure good yielded.unwrap
  · exact callBuiltin_agree inspects good _ held
  · exact complain_tagOf_agree good calleeHeld _

end Texts

end Policy

end Scriptlet
