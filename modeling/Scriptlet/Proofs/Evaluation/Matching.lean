/-
**Evaluations that match.**

One run stands in another: it reads and binds what the other reads and binds at the places of an
embedding, and sees nothing of what the other has besides.

* `ResultsAlike`: two results are values in a relation, or the same fault.
* `Embedding.Sends`: a value and its image, with functions that were made in scopes that are there.
* `Embedding.Matches`: from a store and another one that it stands in, two evaluations have results
  alike, and leave stores that stand in each other as before.

Main statements: matching goes through a sequence of evaluations (`Matches.bind`), with one rule
beside it for each thing an evaluation does by itself; operators and builtins match themselves
(`applyBinary_matches`, `callBuiltin_matches`), and so do calls, if the evaluation of bodies does
(`MatchesTrees.call`). The next module goes from there to whole evaluations.
-/
import Scriptlet.Proofs.Evaluation.Terms
import Scriptlet.Proofs.Store.Embedding

namespace Scriptlet

variable {α β : Type}

/-- Two results are values in a relation, or the same fault. -/
inductive ResultsAlike (alike : α → α → Prop) : Except Fault α → Except Fault α → Prop
  | value {first second : α} : alike first second → ResultsAlike alike (.ok first) (.ok second)
  | fault (fault : Fault) : ResultsAlike alike (.error fault) (.error fault)

/-- Results alike are seen as the same, if values in the relation are. -/
theorem ResultsAlike.map_eq {alike : α → α → Prop} {first second : Except Fault α}
    (results : ResultsAlike alike first second) {see : α → β}
    (same : ∀ {first second}, alike first second → see second = see first) :
    second.map see = first.map see := by
  cases results with
  | value alike => exact congrArg Except.ok (same alike)
  | fault => rfl

namespace Embedding

variable (embedding : Embedding)

/-- A value and its image, where functions were made in one of so many scopes. -/
def Sends (scopes : Nat) (first second : Value) : Prop :=
  second = embedding.value first ∧ embedding.Admits scopes first

/-- A signal and its image, or values and their images. -/
inductive SendsEach (scopes : Nat) : Value ⊕ List Value → Value ⊕ List Value → Prop
  | signal {value : Value} : embedding.Admits scopes value →
      SendsEach scopes (.inl value) (.inl (embedding.value value))
  | values {items : List Value} : (∀ item ∈ items, embedding.Admits scopes item) →
      SendsEach scopes (.inr items) (.inr (items.map embedding.value))

/-- From a store and one that it stands in, two evaluations have results alike, in stores of which
one stands in the other; no scope is gone. -/
structure Matches (alike : Nat → α → α → Prop) (left right : Store) (first second : Eval α) :
    Prop where
  results : ResultsAlike (alike (first.runFrom left).2.scopes.size) (first.runFrom left).1
    (second.runFrom right).1
  stands : embedding.Stands (first.runFrom left).2 (second.runFrom right).2
  grows : left.scopes.size ≤ (first.runFrom left).2.scopes.size

variable {embedding} {left right : Store}

/-! ### Rules -/

namespace Matches

variable {between : Nat → α → α → Prop} {alike : Nat → β → β → Prop}

theorem pure (stands : embedding.Stands left right) {first second : α}
    (alike : between left.scopes.size first second) :
    embedding.Matches between left right (pure first) (pure second) :=
  ⟨.value alike, stands, Nat.le_refl _⟩

theorem throw (stands : embedding.Stands left right) (fault : Fault) :
    embedding.Matches between left right (throw fault) (throw fault) :=
  ⟨.fault fault, stands, Nat.le_refl _⟩

/-- **Matching goes through a sequence.** -/
theorem bind {first second : Eval α} {next other : α → Eval β}
    (head : embedding.Matches between left right first second)
    (rest : ∀ {after after' value value'}, embedding.Stands after after' →
      left.scopes.size ≤ after.scopes.size → between after.scopes.size value value' →
      embedding.Matches alike after after' (next value) (other value')) :
    embedding.Matches alike left right (first >>= next) (second >>= other) := by
  have opened := Eval.runFrom_bind first next left
  have openedOther := Eval.runFrom_bind second other right
  obtain ⟨results, stands, grows⟩ := head
  obtain ⟨⟨result, after⟩, run⟩ : ∃ outcome, first.runFrom left = outcome := ⟨_, rfl⟩
  obtain ⟨⟨result', after'⟩, run'⟩ : ∃ outcome, second.runFrom right = outcome := ⟨_, rfl⟩
  simp only [run, run'] at results stands grows opened openedOther
  cases results with
  | value value =>
    have follows := rest stands grows value
    constructor
    · rw [opened, openedOther]
      exact follows.results
    · rw [opened, openedOther]
      exact follows.stands
    · rw [opened]
      exact Nat.le_trans grows follows.grows
  | fault fault =>
    constructor
    · rw [opened, openedOther]
      exact .fault fault
    · rw [opened, openedOther]
      exact stands
    · rw [opened]
      exact grows

/-- Something that reads no store, and yields the same in both. -/
theorem lift (stands : embedding.Stands left right) (result : Except Fault α) :
    embedding.Matches (fun _ first second => first = second ∧ result = .ok first) left right
      (liftM result) (liftM result) := by
  cases result with
  | ok value => exact pure stands ⟨rfl, rfl⟩
  | error fault => exact throw stands fault

theorem get (stands : embedding.Stands left right) :
    embedding.Matches (fun _ first second => first = left ∧ second = right) left right get get :=
  ⟨.value ⟨rfl, rfl⟩, stands, Nat.le_refl _⟩

/-- A name is bound, where nothing besides has it. -/
theorem bindName (stands : embedding.Stands left right) {scope : ScopeId} {name : String}
    {value : Value} (admitted : embedding.Admits left.scopes.size value)
    (free : ∀ pair ∈ embedding.beside scope, pair.1 ≠ name) :
    embedding.Matches (fun _ _ _ => True) left right
      (modify fun store => store.bind scope name value)
      (modify fun store => store.bind (embedding.scope scope) name (embedding.value value)) :=
  ⟨.value trivial, stands.bind admitted free, Nat.le_of_eq (Store.size_bind ..).symm⟩

/-- A line is printed. -/
theorem print (stands : embedding.Stands left right) (line : String) :
    embedding.Matches (fun _ _ _ => True) left right (modify fun store => store.print line)
      (modify fun store => store.print line) :=
  ⟨.value trivial, stands.print line, Nat.le_refl _⟩

/-- A scope made within one that is there: it has its place, and nothing is bound there besides. -/
theorem enclose (stands : embedding.Stands left right) {outer : ScopeId}
    (within : outer < left.scopes.size) :
    embedding.Matches
      (fun scopes first second =>
        second = embedding.scope first ∧ first < scopes ∧ embedding.beside first = []) left right
      (modifyGet fun store => store.enclose (some outer))
      (modifyGet fun store => store.enclose (some (embedding.scope outer))) := by
  have more : left.scopes.size < (left.enclose (some outer)).2.scopes.size := by
    rw [Store.size_enclose]
    exact Nat.lt_succ_self _
  exact ⟨.value ⟨stands.enclose_fst (some outer), more, stands.bare _ (Nat.le_refl _)⟩,
    stands.enclose within, Nat.le_of_lt more⟩

/-- A value with an identity of its own. -/
theorem identified (stands : embedding.Stands left right) {make make' : Nat → Value}
    (sends : ∀ identity, embedding.Sends left.scopes.size (make identity)
      (make' (embedding.identity identity))) :
    embedding.Matches embedding.Sends left right (Eval.identified make)
      (Eval.identified make') := by
  have sent := sends left.identify.1
  rw [← stands.identify_fst] at sent
  exact ⟨.value sent, stands.identify, Nat.le_refl _⟩

theorem complain (stands : embedding.Stands left right) (complaint : Complaint) :
    embedding.Matches embedding.Sends left right (Eval.complain complaint)
      (Eval.complain complaint) :=
  identified stands fun _ => ⟨rfl, .of_parts_eq_nil trivial rfl⟩

/-- A signal ends both evaluations. -/
theorem unlessSignal (stands : embedding.Stands left right) {value : Value}
    {rest rest' : Eval Value} (admitted : embedding.Admits left.scopes.size value)
    (follows : embedding.Matches embedding.Sends left right rest rest') :
    embedding.Matches embedding.Sends left right (Eval.unlessSignal value rest)
      (Eval.unlessSignal (embedding.value value) rest') := by
  unfold Eval.unlessSignal
  rw [isSignal_value]
  split
  · exact pure stands ⟨rfl, admitted⟩
  · exact follows

end Matches

/-! ### Operators and builtins -/

/-- A value without parts that is no function is its own image. -/
theorem Sends.plain {scopes : Nat} {value : Value} (here : embedding.IsAdmitted scopes value)
    (simple : value.parts = []) : embedding.Sends scopes value (embedding.value value) :=
  ⟨rfl, .of_parts_eq_nil here simple⟩

/-- A value has the type that its image has, or both lack one. -/
theorem tagOf_matches (stands : embedding.Stands left right) (value : Value) :
    embedding.Matches (fun _ first second => first = second) left right (Eval.tagOf value)
      (Eval.tagOf (embedding.value value)) := by
  unfold Eval.tagOf
  rw [tag?_value]
  cases value.tag? with
  | some tag => exact .pure stands rfl
  | none => exact .throw stands .valueMissing

/-- A complaint about the type of a value, if it has one. -/
theorem complain_tagOf_matches (stands : embedding.Stands left right) (value : Value)
    (complaint : Tag → Complaint) :
    embedding.Matches embedding.Sends left right
      (do Eval.complain (complaint (← Eval.tagOf value)))
      (do Eval.complain (complaint (← Eval.tagOf (embedding.value value)))) := by
  refine .bind (tagOf_matches stands value) ?_
  rintro _ _ tag _ stands - rfl
  exact .complain stands (complaint tag)

theorem applyUnary_matches (stands : embedding.Stands left right) (operator : String)
    (value : Value) :
    embedding.Matches embedding.Sends left right (Eval.applyUnary operator value)
      (Eval.applyUnary operator (embedding.value value)) := by
  unfold Eval.applyUnary
  split
  · simp only [isTruthy_value]
    exact .pure stands (.plain trivial rfl)
  · exact .pure stands (.plain trivial rfl)
  next operator value other negated =>
    split
    next => exact (other rfl).elim
    next number image => exact (negated number rfl (value_eq_integer.mp image)).elim
    next => exact complain_tagOf_matches stands _ _

theorem combineIntegers_matches (stands : embedding.Stands left right) (first second : Int)
    (operator : BinaryOperator) :
    embedding.Matches embedding.Sends left right (Eval.combineIntegers first second operator)
      (Eval.combineIntegers first second operator) := by
  cases operator with
  | divide =>
    simp only [Eval.combineIntegers]
    split
    · exact .throw stands .divisionByZero
    · exact .pure stands (.plain trivial rfl)
  | add | subtract | multiply | less | greater | equal | differ =>
    exact .pure stands (.plain trivial rfl)

/-- Images are no two integers where the values are none. -/
theorem image_ne_integers {first second : Value}
    (others : ∀ a b, first = .integer a → second = .integer b → False) :
    ∀ a b, embedding.value first = .integer a → embedding.value second = .integer b → False :=
  fun a b left right => others a b (value_eq_integer.mp left) (value_eq_integer.mp right)

/-- Images are no two strings where the values are none. -/
theorem image_ne_strings {first second : Value}
    (others : ∀ i a j b, first = .string i a → second = .string j b → False) :
    ∀ i a j b, embedding.value first = .string i a → embedding.value second = .string j b →
      False := by
  intro i a j b left right
  obtain ⟨i, left⟩ := exists_of_value_eq_string left
  obtain ⟨j, right⟩ := exists_of_value_eq_string right
  exact others i a j b left right

theorem applyBinary_matches (stands : embedding.Stands left right) (operator : String)
    (first second : Value) :
    embedding.Matches embedding.Sends left right (Eval.applyBinary operator first second)
      (Eval.applyBinary operator (embedding.value first) (embedding.value second)) := by
  unfold Eval.applyBinary
  refine .bind (tagOf_matches stands first) ?_
  rintro _ _ leftTag _ stands - rfl
  refine .bind (tagOf_matches stands second) ?_
  rintro after after' rightTag _ stands - rfl
  -- images are integers or strings only where the values are, so the same rule applies to both
  split
  next known a b named =>
    rw [named]
    exact combineIntegers_matches stands a b known
  next named others =>
    have others := @image_ne_integers embedding _ _ others
    simp only [named, same_value]
    exact .pure stands (.plain trivial rfl)
  next named others =>
    have others := @image_ne_integers embedding _ _ others
    simp only [named, same_value]
    exact .pure stands (.plain trivial rfl)
  next a _ b named =>
    rw [named]
    exact .identified stands fun identity => .plain trivial rfl
  next unequal undiffer numbers texts =>
    have numbers := fun known a b named =>
      @image_ne_integers embedding _ _ (fun a b => numbers known a b named) a b
    have texts := fun i a j b named =>
      @image_ne_strings embedding _ _ (fun i a j b => texts i a j b named) i a j b
    simp only
    split
    · exact .complain stands _
    · exact .complain stands _

/-- An element that may be missing, with null in its place then. -/
theorem Sends.getD_null {scopes : Nat} {item : Option Value}
    (admitted : ∀ value ∈ item, embedding.Admits scopes value) :
    embedding.Sends scopes (item.getD .null) ((item.map embedding.value).getD .null) := by
  cases item with
  | none => exact .plain trivial rfl
  | some value => exact ⟨rfl, admitted value rfl⟩

theorem applyIndex_matches (stands : embedding.Stands left right) {container : Value}
    (admitted : embedding.Admits left.scopes.size container) (index : Value) :
    embedding.Matches embedding.Sends left right (Eval.applyIndex container index)
      (Eval.applyIndex (embedding.value container) (embedding.value index)) := by
  cases container with
  | array identity elements =>
    cases index with
    | integer position =>
      rw [value_array]
      simp only [Eval.applyIndex, value]
      split
      · exact .pure stands (.plain trivial rfl)
      · rw [List.getElem?_map]
        exact .pure stands (.getD_null fun element found =>
          admitted.part element (List.mem_of_getElem? found))
    | _ => exact complain_tagOf_matches stands (.array identity elements) _
  | _ => exact complain_tagOf_matches stands _ _

/-- A builtin that uses the elements of an array. -/
theorem withElements_matches (stands : embedding.Stands left right) (builtin : Builtin)
    {value : Value} (admitted : embedding.Admits left.scopes.size value)
    {use use' : List Value → Eval Value}
    (used : ∀ elements, (∀ element ∈ elements, embedding.Admits left.scopes.size element) →
      embedding.Matches embedding.Sends left right (use elements)
        (use' (elements.map embedding.value))) :
    embedding.Matches embedding.Sends left right (Eval.withElements builtin value use)
      (Eval.withElements builtin (embedding.value value) use') := by
  cases value with
  | array identity elements =>
    rw [value_array]
    exact used elements admitted.part
  | _ => exact complain_tagOf_matches stands _ _

section Texts

variable {inspect : Value → Except Fault String}
  (inspects : ∀ value, inspect (embedding.value value) = inspect value)

include inspects

theorem printAll_matches (stands : embedding.Stands left right) (items : List Value) :
    embedding.Matches (fun _ _ _ => True) left right (Eval.printAll inspect items)
      (Eval.printAll inspect (items.map embedding.value)) := by
  induction items generalizing left right with
  | nil => exact .pure stands trivial
  | cons item rest ih =>
    simp only [List.map_cons, Eval.printAll, inspects]
    refine .bind (.lift stands (inspect item)) ?_
    rintro _ _ text _ stands - ⟨rfl, -⟩
    refine .bind (.print stands text) ?_
    intro _ _ _ _ stands _ _
    exact ih stands

/-- **A builtin matches itself.** -/
theorem callBuiltin_matches (stands : embedding.Stands left right) (builtin : Builtin)
    {arguments : List Value}
    (admitted : ∀ argument ∈ arguments, embedding.Admits left.scopes.size argument) :
    embedding.Matches embedding.Sends left right
      (Eval.callBuiltin inspect builtin arguments)
      (Eval.callBuiltin inspect builtin (arguments.map embedding.value)) := by
  -- all builtins but one ask for a number of arguments first
  by_cases prints : builtin = .puts
  · subst prints
    refine .bind (printAll_matches inspects stands arguments) ?_
    intro _ _ _ _ stands _ _
    exact .pure stands (.plain trivial rfl)
  · rcases arguments with _ | ⟨value, _ | ⟨item, _ | ⟨third, rest⟩⟩⟩
    · cases builtin with
      | puts => exact absurd rfl prints
      | _ => exact .complain stands _
    · have here := admitted value List.mem_cons_self
      cases builtin with
      | puts => exact absurd rfl prints
      | push => exact .complain stands _
      | len =>
        cases value with
        | string => exact .pure stands (.plain trivial rfl)
        | array identity elements =>
          simp only [List.map_cons, List.map_nil, value_array, Eval.callBuiltin, List.length_map]
          exact .pure stands (.plain trivial rfl)
        | _ => exact complain_tagOf_matches stands _ _
      | first =>
        refine withElements_matches stands .first here fun elements each => ?_
        rw [List.head?_map]
        exact .pure stands (.getD_null fun element found => each element (List.mem_of_head? found))
      | last =>
        refine withElements_matches stands .last here fun elements each => ?_
        rw [List.getLast?_map]
        exact .pure stands
          (.getD_null fun element found => each element (List.mem_of_getLast? found))
      | rest =>
        refine withElements_matches stands .rest here fun elements each => ?_
        cases elements with
        | nil => exact .pure stands (.plain trivial rfl)
        | cons first others =>
          refine .identified stands fun identity => ⟨(value_array _ _).symm, .array ?_⟩
          exact fun element member => each element (List.mem_cons_of_mem _ member)
    · cases builtin with
      | puts => exact absurd rfl prints
      | push =>
        have added := admitted item (List.mem_cons_of_mem _ List.mem_cons_self)
        refine withElements_matches stands .push (admitted value List.mem_cons_self)
          fun elements each => ?_
        refine .identified stands fun identity => ⟨by simp [value_array], .array ?_⟩
        exact List.forall_mem_append.mpr ⟨each, List.forall_mem_singleton.mpr added⟩
      | _ => exact .complain stands _
    · cases builtin with
      | puts => exact absurd rfl prints
      | _ =>
        simp only [List.map_cons, Eval.callBuiltin, List.length_cons, List.length_map]
        exact .complain stands _

/-! ### Calls -/

omit inspects in
/-- Names bound in turn on a scope where nothing is bound besides. -/
theorem bindAll_matches (stands : embedding.Stands left right) {inner : ScopeId}
    (bare : embedding.beside inner = []) {pairs : List (String × Value)}
    (admitted : ∀ pair ∈ pairs, embedding.Admits left.scopes.size pair.2) :
    embedding.Matches (fun _ _ _ => True) left right (Eval.bindAll inner pairs)
      (Eval.bindAll (embedding.scope inner) (pairs.map (Prod.map id embedding.value))) := by
  induction pairs generalizing left right with
  | nil => exact .pure stands trivial
  | cons pair rest ih =>
    obtain ⟨name, value⟩ := pair
    obtain ⟨here, later⟩ := List.forall_mem_cons.mp admitted
    refine .bind (.bindName stands here ?_) ?_
    · exact fun pair member => by simp [bare] at member
    · intro _ _ _ _ stands grows _
      exact ih stands fun pair member => (later pair member).mono grows

/-- The evaluation of shaped trees on a scope matches their evaluation on the place of the scope. -/
def MatchesTrees (embedding : Embedding) (evaluate : Tree → ScopeId → Eval Value) : Prop :=
  ∀ {left right : Store} {role : Role} {tree : Tree} {scope : ScopeId},
    embedding.Stands left right → tree.Shaped embedding.Reads role → scope < left.scopes.size →
      embedding.Matches embedding.Sends left right (evaluate tree scope)
        (evaluate tree (embedding.scope scope))

/-- A call matches the call of the image. -/
def MatchesCalls (embedding : Embedding) (apply : Value → List Value → Eval Value) : Prop :=
  ∀ {left right : Store} {callee : Value} {arguments : List Value},
    embedding.Stands left right → embedding.Admits left.scopes.size callee →
      (∀ argument ∈ arguments, embedding.Admits left.scopes.size argument) →
      embedding.Matches embedding.Sends left right (apply callee arguments)
        (apply (embedding.value callee) (arguments.map embedding.value))

/-- **Calls match**, if the evaluation of bodies does. -/
theorem MatchesTrees.call {evaluate : Tree → ScopeId → Eval Value}
    (evaluates : embedding.MatchesTrees evaluate) :
    embedding.MatchesCalls (Eval.call inspect evaluate) := by
  intro left right callee arguments stands callable admitted
  cases callee with
  | function identity parameters body scope =>
    obtain ⟨within, shaped⟩ := callable.here
    simp only [value, Eval.call, List.zip_map_right]
    refine .bind (.enclose stands within) ?_
    rintro _ _ inner _ stands grows ⟨rfl, fresh, bare⟩
    have each : ∀ pair ∈ parameters.zip arguments, embedding.Admits left.scopes.size pair.2 :=
      fun pair member => admitted pair.2 (List.of_mem_zip member).2
    refine .bind (bindAll_matches stands bare fun pair member => (each pair member).mono grows) ?_
    intro _ _ _ _ stands more _
    refine .bind (evaluates stands shaped (Nat.lt_of_lt_of_le fresh more)) ?_
    rintro _ _ result _ stands - ⟨rfl, yielded⟩
    rw [unwrap_value]
    exact .pure stands ⟨rfl, yielded.unwrap⟩
  | builtin known => exact callBuiltin_matches inspects stands known admitted
  | _ => exact complain_tagOf_matches stands _ _

end Texts

end Embedding

end Scriptlet
