/-
**Accounts: what is known of values grows as identities are given out.**

A policy says of each value by itself whether it may be held. Some facts are about all values that
are made in the course of evaluations: what an identity stands for is known once the value with it
is made, and stays so. An account keeps such knowledge beside the evaluation, which does not have
it.

* `Account`, with its laws: what is known is kept, and every value made adds to it.
* `Account.Good`: a store of which everything that is bound is accounted for.
* `Account.Keeps`: from what is known before an evaluation, more is known after it, and nothing is
  met in between that is not accounted for by all that is known in the end. An evaluation that ends
  in the alarm, by which an assumption is seen to fail, is not looked into.

Main statements: an account is kept through a sequence of evaluations (`Keeps.bind`), and by
operators, builtins and calls (`applyBinary_keeps`, `callBuiltin_keeps`, `call_keeps`). The next
module goes from there to whole evaluations.
-/
import Scriptlet.Proofs.Evaluation.Watch
import Scriptlet.Proofs.Tree.Shape
import Scriptlet.Proofs.Value.Held

namespace Scriptlet

variable {α β : Type}

/-- The length that a builtin measures; only a string or an array has one. -/
def Value.length? : Value → Option Nat
  | string _ text => some text.length
  | array _ elements => some elements.length
  | _ => none

/-- The body of a function is a block of a program, whose tokens have a property. -/
def Value.Formed (token : Token → Prop) : Value → Prop
  | function _ _ body _ => body.Shaped token .block
  | _ => True

/-- What is known of values, with the laws that single steps of an evaluation keep. -/
structure Account where
  /-- What may be known. -/
  Known : Type
  /-- More is known. -/
  later : Known → Known → Prop
  /-- So many identities have been given out. -/
  counts : Known → Nat → Prop
  /-- A value is accounted for. -/
  holds : Known → Value → Prop
  /-- The tokens of the trees that are evaluated. -/
  token : Token → Prop
  /-- What is assumed of the moments of an evaluation. -/
  assumes : Moment → Store → Prop
  refl : ∀ known, later known known
  trans : ∀ {known more most}, later known more → later more most → later known most
  holds_later : ∀ {known more value}, later known more → holds known value → holds more value
  part : ∀ {known value part}, holds known value → part ∈ value.parts → holds known part
  formed : ∀ {known value}, holds known value → value.Formed token
  null : ∀ {known}, holds known .null
  boolean : ∀ {known} truth, holds known (.boolean truth)
  builtin : ∀ {known} builtin, holds known (.builtin builtin)
  wrapped : ∀ {known} number, holds known (.integer (Number.wrap number))
  literal : ∀ {known literal number}, token literal → literal.kind = .integer →
    Number.read literal.text = .ok number → holds known (.integer number)
  measured : ∀ {known value length store}, assumes (.applied (.builtin .len) [value]) store →
    value.length? = some length → holds known (.integer length)
  /-- A value made of parts that are accounted for is added to what is known. -/
  make : ∀ {known identity value}, counts known identity → value.identity? = some identity →
    (∀ part ∈ value.parts, holds known part) → value.Formed token →
    ∃ more, later known more ∧ counts more (identity + 1) ∧ holds more value

namespace Account

variable (account : Account)

/-- The identities that a store has given out are counted, and what it binds is accounted for. -/
structure Good (known : account.Known) (store : Store) : Prop where
  counts : account.counts known store.identities
  holds : store.Holds (account.holds known)

/-- No identity has been given out since a value got its own. -/
def Newest (known : account.Known) (value : Value) : Prop :=
  ∃ identity, value.identity? = some identity ∧ account.counts known (identity + 1)

/-- A value that is accounted for and was made last. -/
def Made (known : account.Known) (value : Value) : Prop :=
  account.holds known value ∧ account.Newest known value

variable (alarm : Fault)

/-- From what is known and a store that it accounts for, the second evaluation leads to a store that
is accounted for by more, and yields a value with the given property. The first one does the same,
whatever it ends in an alarm at, if that is allowed by all that is known at some later time. -/
inductive Keeps (yields : account.Known → α → Prop) (known : account.Known) (store : Store)
    (first : account.Known × Fault → Eval α) (second : Eval α) : Prop
  | raised : (second.runFrom store).1 = .error alarm → Keeps yields known store first second
  | kept {more : account.Known} : account.later known more →
      account.Good more (second.runFrom store).2 →
      (∀ watcher, account.later more watcher.1 →
        (first watcher).runFrom store = second.runFrom store) →
      (∀ value, (second.runFrom store).1 = .ok value → yields more value) →
      Keeps yields known store first second

variable {account alarm} {known : account.Known} {store : Store}

/-! ### Rules -/

namespace Keeps

variable {yields between : account.Known → α → Prop} {ends : account.Known → β → Prop}
  {first : account.Known × Fault → Eval α} {second : Eval α}

/-- What is yielded may be known to have less. -/
theorem weaken (keeps : account.Keeps alarm between known store first second)
    (enough : ∀ {more value}, between more value → yields more value) :
    account.Keeps alarm yields known store first second := by
  cases keeps with
  | raised raised => exact .raised raised
  | kept onward good same yielded =>
    exact .kept onward good same fun value result => enough (yielded value result)

theorem pure (good : account.Good known store) {value : α} (yielded : yields known value) :
    account.Keeps alarm yields known store (fun _ => pure value) (pure value) := by
  refine .kept (account.refl known) good (fun _ _ => rfl) fun other result => ?_
  cases result
  exact yielded

theorem throw (good : account.Good known store) (fault : Fault) :
    account.Keeps alarm yields known store (fun _ => throw fault) (throw fault) :=
  .kept (account.refl known) good (fun _ _ => rfl) fun other result => by cases result

/-- **An account is kept through a sequence.** -/
theorem bind {next : account.Known × Fault → α → Eval β} {other : α → Eval β}
    (head : account.Keeps alarm between known store first second)
    (rest : ∀ {more after value}, account.later known more → account.Good more after →
      between more value →
      account.Keeps alarm ends more after (fun watcher => next watcher value) (other value)) :
    account.Keeps alarm ends known store (fun watcher => first watcher >>= next watcher)
      (second >>= other) := by
  have opened := Eval.runFrom_bind second other store
  obtain ⟨⟨result, after⟩, run⟩ : ∃ outcome, second.runFrom store = outcome := ⟨_, rfl⟩
  rw [run] at opened
  cases head with
  | raised raised =>
    rw [run] at raised
    obtain rfl : result = .error alarm := raised
    exact .raised (by rw [opened])
  | @kept more onward good same yielded =>
    have openedFirst : ∀ watcher : account.Known × Fault, account.later more watcher.1 →
        (first watcher >>= next watcher).runFrom store = _ := fun watcher further =>
      (Eval.runFrom_bind (first watcher) (next watcher) store).trans
        (by rw [same watcher further, run])
    simp only [run] at good yielded
    cases result with
    | error fault =>
      refine .kept onward (by rw [opened]; exact good)
        (fun watcher further => by rw [openedFirst watcher further, opened]) fun value ended => ?_
      rw [opened] at ended
      cases ended
    | ok value =>
      cases rest onward good (yielded value rfl) with
      | raised raised => exact .raised (by rw [opened]; exact raised)
      | kept further good same yielded =>
        refine .kept (account.trans onward further) (by rw [opened]; exact good)
          (fun watcher most => ?_) (by rw [opened]; exact yielded)
        rw [openedFirst watcher (account.trans further most), opened]
        exact same watcher most

/-- Something that reads no store, and yields a value or a fault. -/
theorem lift (good : account.Good known store) (result : Except Fault α) :
    account.Keeps alarm (fun _ value => result = .ok value) known store (fun _ => liftM result)
      (liftM result) := by
  cases result with
  | ok value => exact pure good rfl
  | error fault => exact throw good fault

theorem get (good : account.Good known store) :
    account.Keeps alarm account.Good known store (fun _ => get) get := by
  refine .kept (account.refl known) good (fun _ _ => rfl) fun seen result => ?_
  cases result
  exact good

/-- A change of the store that gives out no identity. -/
theorem modify {change : Store → Store} (good : account.Good known (change store)) :
    account.Keeps alarm (fun _ _ => True) known store (fun _ => modify change) (modify change) :=
  .kept (account.refl known) good (fun _ _ => rfl) fun _ _ => trivial

theorem enclose (good : account.Good known store) (outer : Option ScopeId) :
    account.Keeps alarm (fun _ _ => True) known store
      (fun _ => modifyGet fun store => store.enclose outer)
      (modifyGet fun store => store.enclose outer) :=
  .kept (account.refl known) ⟨good.counts, good.holds.enclose outer⟩ (fun _ _ => rfl)
    fun _ _ => trivial

/-- **A value made is accounted for**, and no identity is given out after its own. -/
theorem identified (good : account.Good known store) {make : Nat → Value}
    (own : ∀ identity, (make identity).identity? = some identity)
    (held : ∀ identity, ∀ part ∈ (make identity).parts, account.holds known part)
    (formed : ∀ identity, (make identity).Formed account.token) :
    account.Keeps alarm account.Made known store
      (fun _ => Eval.identified make) (Eval.identified make) := by
  obtain ⟨more, onward, counts, holds⟩ :=
    account.make good.counts (own store.identities) (held _) (formed _)
  refine .kept onward ⟨counts, good.holds.mono fun _ => account.holds_later onward⟩
    (fun _ _ => rfl) fun value result => ?_
  cases result
  exact ⟨holds, store.identities, own _, counts⟩

end Keeps

/-! ### Values made -/

/-- A runtime error is accounted for. -/
theorem complain_made (good : account.Good known store) (complaint : Complaint) :
    account.Keeps alarm account.Made known store (fun _ => Eval.complain complaint)
      (Eval.complain complaint) :=
  .identified good (fun _ => rfl) (fun _ => List.forall_mem_nil _) fun _ => trivial

theorem string_made (good : account.Good known store) (text : String) :
    account.Keeps alarm account.Made known store
      (fun _ => Eval.identified fun identity => .string identity text)
      (Eval.identified fun identity => .string identity text) :=
  .identified good (fun _ => rfl) (fun _ => List.forall_mem_nil _) fun _ => trivial

theorem array_made (good : account.Good known store) {elements : List Value}
    (held : ∀ element ∈ elements, account.holds known element) :
    account.Keeps alarm account.Made known store
      (fun _ => Eval.identified fun identity => .array identity elements)
      (Eval.identified fun identity => .array identity elements) :=
  .identified good (fun _ => rfl) (fun _ => held) fun _ => trivial

theorem hash_made (good : account.Good known store) {pairs : List (Value × Value)}
    (held : ∀ pair ∈ pairs, account.holds known pair.1 ∧ account.holds known pair.2) :
    account.Keeps alarm account.Made known store
      (fun _ => Eval.identified fun identity => .hash identity pairs)
      (Eval.identified fun identity => .hash identity pairs) := by
  refine .identified good (fun _ => rfl) (fun _ part member => ?_) fun _ => trivial
  obtain ⟨pair, inside, which⟩ := List.mem_flatMap.mp member
  rcases List.mem_cons.mp which with rfl | which
  · exact (held pair inside).1
  · rw [List.mem_singleton.mp which]
    exact (held pair inside).2

theorem function_made (good : account.Good known store) (parameters : List String) {body : Tree}
    (shaped : body.Shaped account.token .block) (scope : ScopeId) :
    account.Keeps alarm account.Made known store
      (fun _ => Eval.identified fun identity => .function identity parameters body scope)
      (Eval.identified fun identity => .function identity parameters body scope) :=
  .identified good (fun _ => rfl) (fun _ => List.forall_mem_nil _) fun _ => shaped

theorem returned_made (good : account.Good known store) {operand : Value}
    (held : account.holds known operand) :
    account.Keeps alarm account.Made known store
      (fun _ => Eval.identified fun identity => .returned identity operand)
      (Eval.identified fun identity => .returned identity operand) :=
  .identified good (fun _ => rfl) (fun _ => List.forall_mem_singleton.mpr held) fun _ => trivial

/-! ### Operators and builtins -/

theorem complain_keeps (good : account.Good known store) (complaint : Complaint) :
    account.Keeps alarm account.holds known store (fun _ => Eval.complain complaint)
      (Eval.complain complaint) :=
  (complain_made good complaint).weaken And.left

/-- What has no value is a fault; else the type is found. -/
theorem tagOf_keeps (good : account.Good known store) (value : Value) :
    account.Keeps alarm (fun _ tag => value.tag? = some tag) known store (fun _ => Eval.tagOf value)
      (Eval.tagOf value) := by
  unfold Eval.tagOf
  cases found : value.tag? with
  | some tag => exact .pure good rfl
  | none => exact .throw good _

/-- A complaint about the type of a value, if it has one. -/
theorem complain_tagOf_keeps (good : account.Good known store) (value : Value)
    (complaint : Tag → Complaint) :
    account.Keeps alarm account.holds known store
      (fun _ => do Eval.complain (complaint (← Eval.tagOf value)))
      (do Eval.complain (complaint (← Eval.tagOf value))) :=
  .bind (tagOf_keeps good value) fun _ good _ => complain_keeps good _

theorem applyUnary_keeps (good : account.Good known store) (operator : String) (right : Value) :
    account.Keeps alarm account.holds known store (fun _ => Eval.applyUnary operator right)
      (Eval.applyUnary operator right) := by
  unfold Eval.applyUnary
  split
  · exact .pure good (account.boolean _)
  · exact .pure good (account.wrapped _)
  · exact complain_tagOf_keeps good _ _

theorem combineIntegers_keeps (good : account.Good known store) (left right : Int)
    (operator : BinaryOperator) :
    account.Keeps alarm
      (fun known value => account.holds known value ∧ value.tag? ≠ some .string) known store
      (fun _ => Eval.combineIntegers left right operator)
      (Eval.combineIntegers left right operator) := by
  cases operator with
  | divide =>
    simp only [Eval.combineIntegers]
    split
    · exact .throw good _
    · exact .pure good ⟨account.wrapped _, by simp [Value.tag?]⟩
  | add | subtract | multiply => exact .pure good ⟨account.wrapped _, by simp [Value.tag?]⟩
  | less | greater | equal | differ => exact .pure good ⟨account.boolean _, by simp [Value.tag?]⟩

/-- What a binary operator may yield: a string only if it is the newest value. -/
def Joins (account : Account) (known : account.Known) (value : Value) : Prop :=
  account.holds known value ∧ (value.tag? = some .string → account.Newest known value)

theorem Joins.of_tag_ne {value : Value}
    (plain : account.holds known value ∧ value.tag? ≠ some .string) : account.Joins known value :=
  ⟨plain.1, fun string => absurd string plain.2⟩

theorem applyBinary_keeps (good : account.Good known store) (operator : String)
    (left right : Value) :
    account.Keeps alarm account.Joins known store (fun _ => Eval.applyBinary operator left right)
      (Eval.applyBinary operator left right) := by
  have complains : ∀ {known : account.Known} {store : Store}, account.Good known store →
      ∀ complaint, account.Keeps alarm account.Joins known store (fun _ => Eval.complain complaint)
        (Eval.complain complaint) := by
    intro known store good complaint
    exact (complain_made good complaint).weaken fun made => ⟨made.1, fun _ => made.2⟩
  unfold Eval.applyBinary
  refine .bind (tagOf_keeps good left) fun _ good _ => ?_
  refine .bind (tagOf_keeps good right) fun _ good _ => ?_
  split
  · exact (combineIntegers_keeps good _ _ _).weaken Joins.of_tag_ne
  · exact .pure good (.of_tag_ne ⟨account.boolean _, by simp [Value.tag?]⟩)
  · exact .pure good (.of_tag_ne ⟨account.boolean _, by simp [Value.tag?]⟩)
  · exact (string_made good _).weaken fun made => ⟨made.1, fun _ => made.2⟩
  · split
    · exact complains good _
    · exact complains good _

/-- An element that may be missing, null standing for it. -/
theorem holds_getD {element? : Option Value}
    (held : ∀ element, element? = some element → account.holds known element) :
    account.holds known (element?.getD .null) := by
  cases element? with
  | none => exact account.null
  | some element => exact held element rfl

theorem applyIndex_keeps (good : account.Good known store) {container : Value}
    (held : account.holds known container) (index : Value) :
    account.Keeps alarm account.holds known store (fun _ => Eval.applyIndex container index)
      (Eval.applyIndex container index) := by
  unfold Eval.applyIndex
  split
  · split
    · exact .pure good account.null
    · refine .pure good (holds_getD fun element found => ?_)
      exact account.part held (List.mem_of_getElem? found)
  · exact complain_tagOf_keeps good _ _

/-- A builtin that uses the elements of an array. -/
theorem withElements_keeps (good : account.Good known store) (builtin : Builtin) {value : Value}
    (held : account.holds known value) {use : List Value → Eval Value}
    (used : ∀ elements, (∀ element ∈ elements, account.holds known element) →
      account.Keeps alarm account.holds known store (fun _ => use elements) (use elements)) :
    account.Keeps alarm account.holds known store (fun _ => Eval.withElements builtin value use)
      (Eval.withElements builtin value use) := by
  unfold Eval.withElements
  split
  · exact used _ fun element member => account.part held member
  · exact complain_tagOf_keeps good _ _

variable (inspect : Value → Except Fault String)

theorem printAll_keeps (good : account.Good known store) (values : List Value) :
    account.Keeps alarm (fun _ _ => True) known store (fun _ => Eval.printAll inspect values)
      (Eval.printAll inspect values) := by
  induction values generalizing known store with
  | nil => exact .pure good trivial
  | cons value rest ih =>
    refine .bind (.lift good _) fun _ good _ => ?_
    exact .bind (.modify ⟨good.counts, good.holds⟩) fun _ good _ => ih good

/-- A builtin keeps the account, where its arguments are accounted for and the assumption holds. -/
theorem callBuiltin_keeps (good : account.Good known store) {builtin : Builtin}
    {arguments : List Value}
    (assumed : account.assumes (.applied (.builtin builtin) arguments) store)
    (held : ∀ argument ∈ arguments, account.holds known argument) :
    account.Keeps alarm account.holds known store
      (fun _ => Eval.callBuiltin inspect builtin arguments)
      (Eval.callBuiltin inspect builtin arguments) := by
  unfold Eval.callBuiltin
  split
  next value =>
    split
    · exact .pure good (account.measured assumed rfl)
    · exact .pure good (account.measured assumed rfl)
    · exact complain_tagOf_keeps good _ _
  next value =>
    refine withElements_keeps good _ (held value (by simp)) fun elements each => ?_
    exact .pure good (holds_getD fun element found => each element (List.mem_of_head? found))
  next value =>
    refine withElements_keeps good _ (held value (by simp)) fun elements each => ?_
    exact .pure good (holds_getD fun element found => each element (List.mem_of_getLast? found))
  next value =>
    refine withElements_keeps good _ (held value (by simp)) fun elements each => ?_
    cases elements with
    | nil => exact .pure good account.null
    | cons first others =>
      refine (array_made good fun element member => ?_).weaken And.left
      exact each element (List.mem_cons_of_mem _ member)
  next value item =>
    refine withElements_keeps good _ (held value (by simp)) fun elements each => ?_
    refine (array_made good fun element member => ?_).weaken And.left
    rcases List.mem_append.mp member with member | member
    · exact each element member
    · rw [List.mem_singleton.mp member]
      exact held item (by simp)
  · exact .bind (printAll_keeps inspect good _) fun _ good _ => .pure good account.null
  · exact complain_keeps good _
  · exact complain_keeps good _

/-! ### Calls -/

/-- Names bound in turn on one scope. -/
theorem bindAll_keeps (good : account.Good known store) (scope : ScopeId)
    (bindings : List (String × Value)) (held : ∀ pair ∈ bindings, account.holds known pair.2) :
    account.Keeps alarm (fun _ _ => True) known store (fun _ => Eval.bindAll scope bindings)
      (Eval.bindAll scope bindings) := by
  induction bindings generalizing known store with
  | nil => exact .pure good trivial
  | cons pair rest ih =>
    obtain ⟨name, value⟩ := pair
    obtain ⟨here, others⟩ := List.forall_mem_cons.mp held
    refine .bind (.modify ⟨good.counts, good.holds.bind scope name here⟩) ?_
    intro more after _ onward good _
    exact ih good fun pair member => account.holds_later onward (others pair member)

/-- What a tree in a given role may yield: a value that is accounted for, or none if it is no
expression. -/
def Settles (account : Account) (role : Role) (known : account.Known) (value : Value) : Prop :=
  account.holds known value ∨ value = .nothing ∧ role ≠ .expression

namespace Settles

variable {role : Role} {value : Value}

/-- An expression yields a value. -/
theorem holds (settles : account.Settles .expression known value) : account.holds known value := by
  rcases settles with held | ⟨-, other⟩
  · exact held
  · exact absurd rfl other

/-- An operand taken out is accounted for. -/
theorem operand (settles : account.Settles role known value) :
    account.Settles role known value.operand := by
  rcases settles with held | ⟨rfl, other⟩
  · cases value with
    | returned => exact .inl (account.part held (by simp [Value.parts, Value.operand]))
    | _ => exact .inl held
  · exact .inr ⟨rfl, other⟩

/-- Null in place of no value. -/
theorem orNull (settles : account.Settles role known value) : account.holds known value.orNull := by
  rcases settles with held | ⟨rfl, -⟩
  · cases value with
    | nothing => exact account.null
    | _ => exact held
  · exact account.null

/-- An operand taken out, or null in place of no value. -/
theorem unwrap (settles : account.Settles role known value) : account.holds known value.unwrap := by
  rcases settles with held | ⟨rfl, -⟩
  · cases value with
    | nothing => exact account.null
    | returned => exact account.part held (by simp [Value.parts, Value.unwrap])
    | _ => exact held
  · exact account.null

end Settles

/-- **A call keeps the account**, if the evaluation of bodies does and, where the callee is a
builtin, the assumption holds. -/
theorem call_keeps {evaluate : account.Known × Fault → Tree → ScopeId → Eval Value}
    {evaluate' : Tree → ScopeId → Eval Value}
    (evaluates : ∀ {known store body} scope, account.Good known store →
      body.Shaped account.token .block →
      account.Keeps alarm (account.Settles .block) known store
        (fun watcher => evaluate watcher body scope) (evaluate' body scope))
    (good : account.Good known store) {callee : Value} (calleeHeld : account.holds known callee)
    {arguments : List Value} (held : ∀ argument ∈ arguments, account.holds known argument)
    (assumed : account.assumes (.applied callee arguments) store) :
    account.Keeps alarm account.holds known store
      (fun watcher => Eval.call inspect (evaluate watcher) callee arguments)
      (Eval.call inspect evaluate' callee arguments) := by
  cases callee with
  | function identity parameters body scope =>
    refine .bind (.enclose good (some scope)) ?_
    intro more after inner onward good _
    refine .bind (bindAll_keeps good inner (parameters.zip arguments) ?_) ?_
    · intro pair member
      exact account.holds_later onward (held _ (List.of_mem_zip member).2)
    · intro most within _ _ good _
      refine .bind (evaluates inner good (account.formed calleeHeld)) ?_
      exact fun _ good settles => .pure good settles.unwrap
  | builtin builtin => exact callBuiltin_keeps inspect good assumed held
  | _ => exact complain_tagOf_keeps good _ _

end Account

end Scriptlet
