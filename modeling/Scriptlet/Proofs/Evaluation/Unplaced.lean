/-
**Evaluation does not look at places.**

* `Eval.Forgets`: an evaluation does from a store without places what another one does from the
  store, and its result is that of the other without places.

Main statement: `evaluate_unplaced`, a tree without places is evaluated on a store without places as
the tree is on the store. It goes by induction on the limit, with one rule for each thing an
evaluation does by itself and one lemma for each kind of node.
-/
import Scriptlet.Proofs.Evaluation.Terms
import Scriptlet.Proofs.Value.Unplaced

namespace Scriptlet

variable {α β γ δ : Type}

/-- A result without places, where values lose theirs in a given way. -/
def unplacedResult (forget : α → β) (result : Except Fault α) : Except Fault β :=
  (result.map forget).mapError Fault.unplaced

namespace Eval

/-- The second evaluation does without places what the first one does. -/
def Forgets (forget : α → β) (first : Eval α) (second : Eval β) : Prop :=
  ∀ store : Store, second.runFrom store.unplaced =
    (unplacedResult forget (first.runFrom store).1, (first.runFrom store).2.unplaced)

namespace Forgets

variable {forget : α → β} {forget' : γ → δ} {first : Eval α} {second : Eval β}

theorem pure {value : α} {value' : β} (same : value' = forget value) :
    Forgets forget (pure value) (pure value') :=
  fun _ => by rw [same]; rfl

theorem throw (fault : Fault) : Forgets forget (throw fault) (throw fault.unplaced) :=
  fun _ => rfl

/-- **A sequence forgets what its parts forget.** -/
theorem bind (head : Forgets forget first second) {next : α → Eval γ} {other : β → Eval δ}
    (rest : ∀ value, Forgets forget' (next value) (other (forget value))) :
    Forgets forget' (first >>= next) (second >>= other) := by
  intro store
  rw [runFrom_bind, runFrom_bind, head store]
  obtain ⟨⟨result, after⟩, run⟩ : ∃ outcome, first.runFrom store = outcome := ⟨_, rfl⟩
  rw [run]
  cases result with
  | ok value => exact rest value after
  | error fault => rfl

/-- Something that reads no store. -/
theorem lift {result : Except Fault α} {result' : Except Fault β}
    (same : result' = unplacedResult forget result) :
    Forgets forget (liftM result) (liftM result') := by
  intro store
  rw [runFrom_lift, runFrom_lift, same]

/-- A text that does not depend on places. -/
theorem lift_text {result result' : Except Fault String}
    (same : result' = result.mapError Fault.unplaced) :
    Forgets id (liftM result) (liftM result') :=
  lift (by rw [same]; cases result <;> rfl)

theorem get : Forgets Store.unplaced get get :=
  fun _ => rfl

theorem modify {change change' : Store → Store}
    (same : ∀ store, change' store.unplaced = (change store).unplaced) :
    Forgets id (modify change) (modify change') := by
  intro store
  rw [runFrom_modify, runFrom_modify, same]
  rfl

theorem identified {make make' : Nat → Value}
    (same : ∀ identity, make' identity = (make identity).unplaced) :
    Forgets Value.unplaced (identified make) (identified make') := by
  intro store
  show (Except.ok (make' _), _) = _
  rw [same]
  rfl

theorem complain (complaint : Complaint) :
    Forgets Value.unplaced (complain complaint) (complain complaint) :=
  .identified fun _ => rfl

/-- A signal ends both evaluations. -/
theorem unlessSignal (value : Value) {rest rest' : Eval Value}
    (follows : Forgets Value.unplaced rest rest') :
    Forgets Value.unplaced (unlessSignal value rest) (unlessSignal value.unplaced rest') := by
  unfold Eval.unlessSignal
  rw [Value.isSignal_unplaced]
  split
  · exact .pure rfl
  · exact follows

end Forgets

/-! ### Operators and builtins -/

theorem tagOf_forgets (value : Value) : Forgets id (tagOf value) (tagOf value.unplaced) := by
  unfold tagOf
  rw [Value.tag?_unplaced]
  cases value.tag? with
  | some tag => exact .pure rfl
  | none => exact .throw .valueMissing

/-- A complaint about the type of a value, if it has one. -/
theorem complain_tagOf_forgets (value : Value) (complaint : Tag → Complaint) :
    Forgets Value.unplaced (do complain (complaint (← tagOf value)))
      (do complain (complaint (← tagOf value.unplaced))) :=
  .bind (tagOf_forgets value) fun tag => .complain (complaint tag)

theorem applyUnary_forgets (operator : String) (value : Value) :
    Forgets Value.unplaced (applyUnary operator value) (applyUnary operator value.unplaced) := by
  unfold applyUnary
  split
  · rw [Value.isTruthy_unplaced]
    exact .pure rfl
  · exact .pure rfl
  next other negated =>
    split
    next => exact (other rfl).elim
    next number image => exact (negated number rfl (Value.unplaced_eq_integer.mp image)).elim
    next => exact complain_tagOf_forgets _ _

theorem combineIntegers_forgets (first second : Int) (operator : BinaryOperator) :
    Forgets Value.unplaced (combineIntegers first second operator)
      (combineIntegers first second operator) := by
  cases operator with
  | divide =>
    simp only [combineIntegers]
    split
    · exact .throw .divisionByZero
    · exact .pure rfl
  | add | subtract | multiply | less | greater | equal | differ => exact .pure rfl

theorem applyBinary_forgets (operator : String) (first second : Value) :
    Forgets Value.unplaced (applyBinary operator first second)
      (applyBinary operator first.unplaced second.unplaced) := by
  unfold applyBinary
  refine .bind (tagOf_forgets first) fun leftTag => ?_
  refine .bind (tagOf_forgets second) fun rightTag => ?_
  -- without places there are integers or strings only where the values are, so one rule applies
  split
  next known a b named =>
    simp only [named, id]
    exact combineIntegers_forgets a b known
  next named others =>
    have others := fun a b left right =>
      others a b (Value.unplaced_eq_integer.mp left) (Value.unplaced_eq_integer.mp right)
    simp only [named, Value.same_unplaced]
    exact .pure rfl
  next named others =>
    have others := fun a b left right =>
      others a b (Value.unplaced_eq_integer.mp left) (Value.unplaced_eq_integer.mp right)
    simp only [named, Value.same_unplaced]
    exact .pure rfl
  next a _ b named =>
    simp only [named, id]
    exact .identified fun _ => rfl
  next unequal undiffer numbers texts =>
    have numbers := fun known a b named left right =>
      numbers known a b named (Value.unplaced_eq_integer.mp left)
        (Value.unplaced_eq_integer.mp right)
    have texts := fun i a j b named left right =>
      texts i a j b named (Value.unplaced_eq_string.mp left) (Value.unplaced_eq_string.mp right)
    simp only [id]
    split
    · exact .complain _
    · exact .complain _

/-- An element that may be missing, with null in its place then. -/
theorem getD_null_unplaced (item : Option Value) :
    (item.map Value.unplaced).getD .null = (item.getD .null).unplaced := by
  cases item <;> rfl

theorem applyIndex_forgets (container index : Value) :
    Forgets Value.unplaced (applyIndex container index)
      (applyIndex container.unplaced index.unplaced) := by
  cases container with
  | array identity elements =>
    cases index with
    | integer position =>
      rw [Value.unplaced_array]
      simp only [applyIndex, Value.unplaced]
      split
      · exact .pure rfl
      · rw [List.getElem?_map]
        exact .pure (getD_null_unplaced _)
    | _ => exact complain_tagOf_forgets (.array identity elements) _
  | _ => exact complain_tagOf_forgets _ _

/-- A builtin that uses the elements of an array. -/
theorem withElements_forgets (builtin : Builtin) (value : Value)
    {use use' : List Value → Eval Value}
    (used : ∀ elements,
      Forgets Value.unplaced (use elements) (use' (elements.map Value.unplaced))) :
    Forgets Value.unplaced (withElements builtin value use)
      (withElements builtin value.unplaced use') := by
  cases value with
  | array identity elements =>
    rw [Value.unplaced_array]
    exact used elements
  | _ => exact complain_tagOf_forgets _ _

section Texts

variable {inspect : Value → Except Fault String}
  (inspects : ∀ value, inspect value.unplaced = (inspect value).mapError Fault.unplaced)

include inspects

theorem printAll_forgets (items : List Value) :
    Forgets id (printAll inspect items) (printAll inspect (items.map Value.unplaced)) := by
  induction items with
  | nil => exact .pure rfl
  | cons item rest ih =>
    refine .bind (.lift_text (inspects item)) fun text => ?_
    refine .bind (.modify fun store => (store.unplaced_print text).symm) fun _ => ?_
    exact ih

/-- **A builtin does not look at places.** -/
theorem callBuiltin_forgets (builtin : Builtin) (arguments : List Value) :
    Forgets Value.unplaced (callBuiltin inspect builtin arguments)
      (callBuiltin inspect builtin (arguments.map Value.unplaced)) := by
  -- all builtins but one ask for a number of arguments first
  by_cases prints : builtin = .puts
  · subst prints
    exact .bind (printAll_forgets inspects arguments) fun _ => .pure rfl
  · rcases arguments with _ | ⟨value, _ | ⟨item, _ | ⟨third, rest⟩⟩⟩
    · cases builtin with
      | puts => exact absurd rfl prints
      | _ => exact .complain _
    · cases builtin with
      | puts => exact absurd rfl prints
      | push => exact .complain _
      | len =>
        cases value with
        | string => exact .pure rfl
        | array identity elements =>
          simp only [List.map_cons, List.map_nil, Value.unplaced_array, callBuiltin,
            List.length_map]
          exact .pure rfl
        | _ => exact complain_tagOf_forgets _ _
      | first =>
        refine withElements_forgets .first value fun elements => ?_
        rw [List.head?_map]
        exact .pure (getD_null_unplaced _)
      | last =>
        refine withElements_forgets .last value fun elements => ?_
        rw [List.getLast?_map]
        exact .pure (getD_null_unplaced _)
      | rest =>
        refine withElements_forgets .rest value fun elements => ?_
        cases elements with
        | nil => exact .pure rfl
        | cons first others => exact .identified fun _ => (Value.unplaced_array _ _).symm
    · cases builtin with
      | puts => exact absurd rfl prints
      | push =>
        refine withElements_forgets .push value fun elements => ?_
        exact .identified fun identity => by simp
      | _ => exact .complain _
    · cases builtin with
      | puts => exact absurd rfl prints
      | _ =>
        simp only [List.map_cons, callBuiltin, List.length_cons, List.length_map]
        exact .complain _

end Texts

theorem bindAll_forgets (scope : ScopeId) (pairs : List (String × Value)) :
    Forgets id (bindAll scope pairs) (bindAll scope (pairs.map (Prod.map id Value.unplaced))) := by
  induction pairs with
  | nil => exact .pure rfl
  | cons pair rest ih =>
    exact .bind (.modify fun store => (store.unplaced_bind scope pair.1 pair.2).symm) fun _ => ih

/-! ### One level of evaluation -/

section Step

variable {evaluate : Tree → ScopeId → Eval Value} {apply : Value → List Value → Eval Value}
  {scope : ScopeId}
  (evaluates : ∀ tree scope,
    Forgets Value.unplaced (evaluate tree scope) (evaluate tree.unplaced scope))
  (applies : ∀ callee arguments, Forgets Value.unplaced (apply callee arguments)
    (apply callee.unplaced (arguments.map Value.unplaced)))

theorem identifier_forgets (name : String) :
    Forgets Value.unplaced (identifier scope name) (identifier scope name) := by
  refine .bind .get fun store => ?_
  rw [Store.lookup?_unplaced]
  cases store.lookup? scope name with
  | some value => exact .pure rfl
  | none =>
    cases Builtin.ofName? name with
    | some builtin => exact .pure rfl
    | none => exact .complain _

theorem function_forgets (parts : List Tree) :
    Forgets Value.unplaced (function scope parts) (function scope (parts.map Tree.unplaced)) := by
  match parts with
  | [] | [_] => exact .throw (.childCount true 2 _)
  | [parameters, body] =>
    refine .identified fun identity => ?_
    rw [Tree.children_unplaced, Tree.filterMap_token?_unplaced, List.map_map]
    rfl
  | _ :: _ :: _ :: _ =>
    simp only [List.map_cons, function, List.length_cons, List.length_map]
    exact .throw (.childCount true 2 _)

include evaluates

/-- A call does not look at places, if the evaluation of bodies does not. -/
theorem call_forgets {inspect : Value → Except Fault String}
    (inspects : ∀ value, inspect value.unplaced = (inspect value).mapError Fault.unplaced)
    (callee : Value) (arguments : List Value) :
    Forgets Value.unplaced (call inspect evaluate callee arguments)
      (call inspect evaluate callee.unplaced (arguments.map Value.unplaced)) := by
  cases callee with
  | function identity parameters body scope =>
    simp only [Value.unplaced, call, List.zip_map_right]
    have entered : Forgets id (modifyGet fun store => store.enclose (some scope))
        (modifyGet fun store => store.enclose (some scope)) := by
      intro store
      rw [runFrom_modifyGet, runFrom_modifyGet, Store.unplaced_enclose]
      rfl
    refine .bind entered fun inner => ?_
    refine .bind (bindAll_forgets inner _) fun _ => ?_
    refine .bind (evaluates body inner) fun result => ?_
    exact .pure result.unwrap_unplaced
  | builtin known => exact callBuiltin_forgets inspects known arguments
  | _ => exact complain_tagOf_forgets _ _

/-- A part is evaluated, and then what follows, unless the part yields a signal. -/
theorem part_forgets (part : Tree) {next next' : Value → Eval Value}
    (follows : ∀ value, Forgets Value.unplaced (next value) (next' value.unplaced)) :
    Forgets Value.unplaced
      (evaluate part scope >>= fun value => unlessSignal value (next value))
      (evaluate part.unplaced scope >>= fun value => unlessSignal value (next' value)) :=
  .bind (evaluates part scope) fun value => .unlessSignal value (follows value)

theorem statements_forgets (last : Value) (parts : List Tree) :
    Forgets Value.unplaced (statements evaluate scope last parts)
      (statements evaluate scope last.unplaced (parts.map Tree.unplaced)) := by
  induction parts generalizing last with
  | nil => exact .pure rfl
  | cons part rest ih => exact part_forgets evaluates part ih

theorem values_forgets (parts : List Tree) :
    Forgets (Sum.map Value.unplaced (List.map Value.unplaced)) (values evaluate scope parts)
      (values evaluate scope (parts.map Tree.unplaced)) := by
  induction parts with
  | nil => exact .pure rfl
  | cons part rest ih =>
    refine .bind (evaluates part scope) fun value => ?_
    rw [Value.isSignal_unplaced]
    split
    · exact .pure rfl
    · exact .bind ih fun result => by cases result <;> exact .pure rfl

theorem firstPart_forgets (parts : List Tree) :
    Forgets Value.unplaced (firstPart evaluate scope parts)
      (firstPart evaluate scope (parts.map Tree.unplaced)) := by
  cases parts with
  | nil => exact .throw .childMissing
  | cons part rest => exact evaluates part scope

theorem binding_forgets (parts : List Tree) :
    Forgets Value.unplaced (binding evaluate scope parts)
      (binding evaluate scope (parts.map Tree.unplaced)) := by
  match parts with
  | [] | [_] => exact .throw (.childCount true 2 _)
  | [name, part] =>
    refine part_forgets evaluates part fun value => ?_
    refine .bind (.lift_text name.tokenText_unplaced) fun text => ?_
    refine .bind (.modify fun store => (store.unplaced_bind scope text value).symm) fun _ => ?_
    exact .pure rfl
  | _ :: _ :: _ :: _ =>
    simp only [List.map_cons, binding, List.length_cons, List.length_map]
    exact .throw (.childCount true 2 _)

theorem returning_forgets (parts : List Tree) :
    Forgets Value.unplaced (returning evaluate scope parts)
      (returning evaluate scope (parts.map Tree.unplaced)) :=
  .bind (firstPart_forgets evaluates parts) fun value =>
    .unlessSignal value (.identified fun _ => rfl)

theorem unary_forgets (parts : List Tree) :
    Forgets Value.unplaced (unary evaluate scope parts)
      (unary evaluate scope (parts.map Tree.unplaced)) := by
  match parts with
  | [] | [_] => exact .throw (.childCount true 2 _)
  | [operator, part] =>
    refine part_forgets evaluates part fun right => ?_
    exact .bind (.lift_text operator.tokenText_unplaced) fun text => applyUnary_forgets text right
  | _ :: _ :: _ :: _ =>
    simp only [List.map_cons, unary, List.length_cons, List.length_map]
    exact .throw (.childCount true 2 _)

theorem binary_forgets (parts : List Tree) :
    Forgets Value.unplaced (binary evaluate scope parts)
      (binary evaluate scope (parts.map Tree.unplaced)) := by
  match parts with
  | [] | [_] | [_, _] => exact .throw (.childCount true 3 _)
  | [first, operator, second] =>
    refine part_forgets evaluates first fun left => ?_
    refine part_forgets evaluates second fun right => ?_
    exact .bind (.lift_text operator.tokenText_unplaced) fun text =>
      applyBinary_forgets text left right
  | _ :: _ :: _ :: _ :: _ =>
    simp only [List.map_cons, binary, List.length_cons, List.length_map]
    exact .throw (.childCount true 3 _)

theorem index_forgets (parts : List Tree) :
    Forgets Value.unplaced (index evaluate scope parts)
      (index evaluate scope (parts.map Tree.unplaced)) := by
  match parts with
  | [] | [_] => exact .throw (.childCount true 2 _)
  | [first, second] =>
    refine part_forgets evaluates first fun container => ?_
    exact part_forgets evaluates second fun position => applyIndex_forgets container position
  | _ :: _ :: _ :: _ =>
    simp only [List.map_cons, index, List.length_cons, List.length_map]
    exact .throw (.childCount true 2 _)

theorem conditional_forgets (parts : List Tree) :
    Forgets Value.unplaced (conditional evaluate scope parts)
      (conditional evaluate scope (parts.map Tree.unplaced)) := by
  have branch : ∀ part, Forgets Value.unplaced (do return (← evaluate part scope).orNull)
      (do return (← evaluate part.unplaced scope).orNull) :=
    fun part => .bind (evaluates part scope) fun value => .pure value.orNull_unplaced
  match parts with
  | [] | [_] => exact .throw (.childCount false 2 _)
  | condition :: consequence :: rest =>
    refine part_forgets evaluates condition fun value => ?_
    rw [Value.isTruthy_unplaced]
    split
    · exact branch consequence
    · cases rest with
      | nil => exact .pure rfl
      | cons alternative others =>
        cases alternative with
        | absent => exact .pure rfl
        | leaf token => exact branch (.leaf token)
        | node label children => exact branch (.node label children)

theorem array_forgets (parts : List Tree) :
    Forgets Value.unplaced (array evaluate scope parts)
      (array evaluate scope (parts.map Tree.unplaced)) := by
  refine .bind (values_forgets evaluates parts) fun result => ?_
  cases result with
  | inl signal => exact .pure rfl
  | inr elements => exact .identified fun _ => (Value.unplaced_array _ _).symm

theorem pairs_forgets (done : List (Value × Value)) (parts : List Tree) :
    Forgets Value.unplaced (pairs evaluate scope done parts)
      (pairs evaluate scope (Value.unplacedPairs done) (parts.map Tree.unplaced)) := by
  induction parts generalizing done with
  | nil => exact .identified fun _ => rfl
  | cons pair rest ih =>
    simp only [List.map_cons, pairs, Tree.children_unplaced]
    match pair.children with
    | [] | [_] => exact .throw (.childCount true 2 _)
    | [first, second] =>
      refine part_forgets evaluates first fun key => ?_
      rw [Value.key?_unplaced]
      cases key.key? with
      | none => exact complain_tagOf_forgets key _
      | some found =>
        refine part_forgets evaluates second fun value => ?_
        rw [← Value.unplacedPairs_putPair]
        exact ih _
    | _ :: _ :: _ :: _ =>
      simp only [List.map_cons, List.length_cons, List.length_map]
      exact .throw (.childCount true 2 _)

include applies

theorem application_forgets (parts : List Tree) :
    Forgets Value.unplaced (application evaluate apply scope parts)
      (application evaluate apply scope (parts.map Tree.unplaced)) := by
  match parts with
  | [] | [_] => exact .throw (.childCount true 2 _)
  | [first, second] =>
    refine part_forgets evaluates first fun callee => ?_
    rw [Tree.children_unplaced]
    refine .bind (values_forgets evaluates second.children) fun result => ?_
    cases result with
    | inl signal => exact .pure rfl
    | inr arguments => exact applies callee arguments
  | _ :: _ :: _ :: _ =>
    simp only [List.map_cons, application, List.length_cons, List.length_map]
    exact .throw (.childCount true 2 _)

/-- **One level of evaluation does not look at places**, if the evaluation of the parts and calls do
not. -/
theorem step_forgets (tree : Tree) :
    Forgets Value.unplaced (step evaluate apply scope tree)
      (step evaluate apply scope tree.unplaced) := by
  cases tree with
  | leaf | absent => exact .pure rfl
  | node label parts =>
    have token := Tree.tokenText_unplaced (.node label parts)
    rw [Tree.node_unplaced] at token ⊢
    cases label with
    | program =>
      refine .bind (statements_forgets evaluates .nothing parts) fun value => ?_
      exact .pure value.operand_unplaced
    | block => exact statements_forgets evaluates .nothing parts
    | expressionStatement => exact firstPart_forgets evaluates parts
    | letStatement => exact binding_forgets evaluates parts
    | returnStatement => exact returning_forgets evaluates parts
    | identifier => exact .bind (.lift_text token) fun text => identifier_forgets text
    | integer =>
      refine .bind (.lift_text token) fun text => ?_
      simp only [id]
      split
      · exact .pure rfl
      next reason => exact .throw (.misread _)
    | string => exact .bind (.lift_text token) fun text => .identified fun _ => rfl
    | boolean => exact .bind (.lift_text token) fun text => .pure rfl
    | unary => exact unary_forgets evaluates parts
    | binary => exact binary_forgets evaluates parts
    | index => exact index_forgets evaluates parts
    | conditional => exact conditional_forgets evaluates parts
    | function => exact function_forgets parts
    | call => exact application_forgets evaluates applies parts
    | array => exact array_forgets evaluates parts
    | hash => exact pairs_forgets evaluates [] parts
    | parameters | arguments | pair | other => exact .pure rfl

end Step

end Eval

/-- **Evaluation does not look at places.** -/
theorem evaluate_unplaced (limit : Nat) (tree : Tree) (scope : ScopeId) :
    Eval.Forgets Value.unplaced (evaluate limit tree scope)
      (evaluate limit tree.unplaced scope) := by
  induction limit generalizing tree scope with
  | zero => exact .throw .nestingTooDeep
  | succ limit ih =>
    exact Eval.step_forgets ih (Eval.call_forgets ih (Value.inspectWithin_unplaced limit)) tree

/-! ### Trees that are alike but for places -/

/-- Trees that are alike but for places yield on the initial store what is alike but for places, and
leave alike what they have bound. -/
theorem evaluate_alike {read tree : Tree} (alike : read.unplaced = tree.unplaced) {limit : Nat}
    {scope : ScopeId} {value : Value} {after : Store}
    (ran : (evaluate limit tree scope).runFrom .initial = (.ok value, after)) :
    ∃ other store, (evaluate limit read scope).runFrom .initial = (.ok other, store) ∧
      other.unplaced = value.unplaced ∧ store.unplaced = after.unplaced := by
  have here := evaluate_unplaced limit read scope .initial
  rw [alike, evaluate_unplaced limit tree scope .initial, ran] at here
  obtain ⟨same, stores⟩ := Prod.mk.inj here
  obtain ⟨⟨result, store⟩, ended⟩ :
      ∃ outcome, (evaluate limit read scope).runFrom .initial = outcome := ⟨_, rfl⟩
  rw [ended] at same stores
  cases result with
  | error fault => cases same
  | ok other => exact ⟨other, store, ended, (Except.ok.inj same).symm, stores.symm⟩

end Scriptlet
