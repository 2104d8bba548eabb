/-
**What is bound is read back.**

A statement binds a name to the value of an expression on the root scope; a call binds a parameter
on a scope of its own. Reading the name then finds that value, whatever it is and whatever was bound
before.

* `Embedding.afterFunction`: a run on an empty store, in a run that has made a function before.

Main statement: `bound_value_read_back`. If the text of an expression runs with a value, then so
does each of the two texts that bind a name to it and read the name, where they are accepted.
-/
import Scriptlet.Proofs.Evaluation.Embedded
import Scriptlet.Proofs.Evaluation.Limit
import Scriptlet.Proofs.Evaluation.MapProgram
import Scriptlet.Proofs.Evaluation.Safety
import Scriptlet.Proofs.Evaluation.Unplaced
import Scriptlet.Proofs.Reader.Bound

namespace Scriptlet

/-- A name that is bound on a scope itself is found there. -/
theorem Store.lookup?_of_find? {store : Store} {id : ScopeId} {scope : Scope} {name : String}
    {value : Value} (found : store.scopes[id]? = some scope)
    (bound : scope.find? name = some value) : store.lookup? id name = some value := by
  simp [lookup?, chain, chainWithin, found, bound]

/-- A name is found where it has been bound. -/
theorem Store.lookup?_bind_self {store : Store} {id : ScopeId} (within : id < store.scopes.size)
    (name : String) (value : Value) : (store.bind id name value).lookup? id name = some value := by
  have here : (store.bind id name value).scopes[id]? = some (store.scopes[id].bind name value) := by
    rw [bind, Array.getElem?_modify, if_pos rfl, Array.getElem?_eq_getElem within]
    rfl
  exact lookup?_of_find? here (by rw [Scope.find?_bind, if_pos rfl])

/-! ### The two programs -/

section Programs

variable {limit : Nat} {name : String} {tree : Tree} {scope : ScopeId} {store after : Store}
  {value : Value}

/-- The program that binds a name to an expression yields what the expression yields. -/
theorem runFrom_bindingTree
    (ran : (evaluate (limit + 1) tree scope).runFrom store = (.ok value, after))
    (within : scope < after.scopes.size) :
    ((evaluate (limit + 3) (bindingTree name tree) scope).runFrom store).1 = .ok value.operand := by
  rw [bindingTree, Build.program, evaluate_program, Eval.runFrom_return]
  cases calm : value.isSignal with
  | true =>
    have bound : (evaluate (limit + 2) (Build.binding name tree) scope).runFrom store =
        (.ok value, after) := Eval.runFrom_used_signal ran _ calm
    rw [Eval.statements, Eval.runFrom_used_signal bound _ calm]
    rfl
  | false =>
    have bound : (evaluate (limit + 2) (Build.binding name tree) scope).runFrom store =
        (.ok .nothing, after.bind scope name value) := Eval.runFrom_used_calm ran _ calm
    rw [Eval.statements, Eval.runFrom_used_calm bound _ rfl, Eval.statements_singleton]
    show ((evaluate (limit + 1) (Build.identifier name) scope).runFrom _).1.map _ = _
    rw [levels_evaluate.identifier (Store.lookup?_bind_self within name value)]
    rfl

/-- The program that calls a function which reads its parameter yields what the argument yields, if
this is there. -/
theorem runFrom_callTree
    (ran : (evaluate (limit + 3) tree scope).runFrom store.identify.2 = (.ok value, after))
    (present : value ≠ .nothing) :
    ((evaluate (limit + 6) (callTree name tree) scope).runFrom store).1 = .ok value.operand := by
  have made : (evaluate (limit + 3) (readingTree name) scope).runFrom store =
      (.ok (.function store.identities [name]
        (Build.block [Build.statement (Build.identifier name)]) scope), store.identify.2) := rfl
  have called : ((evaluate (limit + 4) (Build.call (readingTree name) [tree]) scope).runFrom
      store).1 = .ok value := by
    rw [levels_evaluate.call_one made rfl]
    cases calm : value.isSignal with
    | true => rw [Eval.runFrom_used_signal ran _ calm]
    | false =>
      rw [Eval.runFrom_used_calm ran _ calm, apply, Eval.runFrom_call,
        levels_evaluate.block_statement, Eval.runFrom_return]
      have found :
          (after.called scope [(name, value)]).lookup? after.scopes.size name = some value :=
        Store.lookup?_of_find? Store.getElem?_called (by simp [Scope.find?])
      have unwrapped : value.unwrap = value := by
        cases value with
        | nothing => exact absurd rfl present
        | returned => cases calm
        | _ => rfl
      show ((evaluate (limit + 1) (Build.identifier name) _).runFrom
        (after.called scope [(name, value)])).1.map Value.unwrap = _
      rw [levels_evaluate.identifier found, Except.map, unwrapped]
  show ((evaluate (limit + 6) (.node .program [.node .expressionStatement
    [Build.call (readingTree name) [tree]]]) scope).runFrom store).1 = _
  rw [evaluate_expressing, Eval.runFrom_return, called]
  rfl

end Programs

/-! ### After a function has been made -/

namespace Embedding

/-- A run that starts on an empty store, in a run where one identity has been given out. -/
def afterFunction : Embedding where
  scope id := id
  identity number := number + 1
  around := none
  beside _ := []
  printed := []
  rising less := less
  distinct same := Nat.succ.inj same
  outside _ := by simp

theorem visible_afterFunction (name : String) : afterFunction.Visible name := by
  intro id pair member
  cases member

theorem stands_afterFunction : afterFunction.Stands .initial Store.initial.identify.2 where
  scopes id := by
    cases id with
    | zero => rfl
    | succ id => simp [afterFunction, Store.initial, Store.identify]
  around id around := by cases around
  nested found encloses := by
    rw [Store.eq_of_initial found] at encloses
    cases encloses
  admitted := .initial
  nextScope _ := rfl
  nextIdentity more := Nat.add_right_comm 0 more 1
  bare _ _ := rfl
  printed := rfl

end Embedding

section Expressions

variable {tree : Tree} (shaped : tree.Shaped Token.InRange .expression) {limit : Nat}
  {value : Value} {after : Store}

include shaped

/-- An expression does alike after a function has been made. -/
theorem evaluate_afterFunction (limit : Nat) :
    Embedding.afterFunction.Matches Embedding.afterFunction.Sends .initial Store.initial.identify.2
      (evaluate limit tree Store.root) (evaluate limit tree Store.root) :=
  Embedding.evaluate_matches limit Embedding.stands_afterFunction
    (shaped.of_forall_tokens fun token _ _ _ => Embedding.visible_afterFunction token.text)
    (by decide)

/-- It leaves the root scope there. -/
theorem root_lt_of_runFrom
    (ran : (evaluate limit tree Store.root).runFrom .initial = (.ok value, after)) :
    Store.root < after.scopes.size := by
  have grows := (evaluate_afterFunction shaped limit).grows
  rwa [ran] at grows

/-- It yields the same but for identities. -/
theorem runFrom_afterFunction
    (ran : (evaluate limit tree Store.root).runFrom .initial = (.ok value, after)) :
    ∃ after', (evaluate limit tree Store.root).runFrom Store.initial.identify.2 =
      (.ok (Embedding.afterFunction.value value), after') := by
  have later := (evaluate_afterFunction shaped limit).results
  obtain ⟨⟨result, after'⟩, run⟩ : ∃ outcome,
    (evaluate limit tree Store.root).runFrom Store.initial.identify.2 = outcome := ⟨_, rfl⟩
  rw [ran, run] at later
  cases later with
  | value sent => exact ⟨after', by rw [run, sent.1]⟩

/-- Its value is not missing. -/
theorem ne_nothing_of_runFrom
    (ran : (evaluate limit tree Store.root).runFrom .initial = (.ok value, after)) :
    value ≠ .nothing := by
  have agree : safety.toTerms.Agree (safety.Yields tree) .initial
      (evaluateWatched Moment.Present .valueMissing limit tree Store.root)
      (evaluate limit tree Store.root) :=
    Policy.evaluate_agree _ safety.present_of_allows _ .initial ⟨.expression, shaped⟩
  have yielded := agree.yields value (congrArg Prod.fst ran)
  rcases safety.present_of_yields yielded with present | ⟨-, silent⟩
  · exact present.here
  · rw [shaped.isExpression] at silent
    cases silent

end Expressions

/-! ### From the text on -/

/-- A text that is a program but for places is run with what the program yields. -/
theorem runWithin_of_unplaced {source : String} {read tree : Tree} {limit : Nat} {value : Value}
    (parsed : parse source = .ok read) (alike : read.unplaced = tree.unplaced)
    (yielded : ((evaluate limit tree Store.root).runFrom .initial).1 = .ok value) :
    (runWithin limit source Store.root .initial).1.result.map Value.seen = .ok value.seen := by
  have shown := (safety.run_settles .initial parsed limit).2
  obtain ⟨other, store, ran, same, -⟩ := evaluate_alike alike (Prod.ext yielded rfl)
  rw [runWithin_of_parse parsed, ran] at shown ⊢
  exact congrArg Except.ok (Value.seen_of_unplaced same.symm (shown other rfl)).symm

/-- The text of an expression that runs with a value leaves room for the expression, which yields a
value that the program takes an operand out of. -/
theorem IsExpression.exists_of_runWithin {source : String} {tree : Tree}
    (isExpression : IsExpression source tree) {limit : Nat} {value : Value}
    (yielded : (runWithin limit source Store.root .initial).1.result = .ok value) :
    ∃ room inner after, limit = room + 3 ∧ value = inner.operand ∧
      (evaluate (room + 1) tree Store.root).runFrom .initial = (.ok inner, after) := by
  rw [runWithin_of_parse isExpression.1] at yielded
  rcases limit with _ | _ | _ | room
  · cases yielded
  · cases yielded
  · cases yielded
  · rw [evaluate_expressing, Eval.runFrom_return] at yielded
    obtain ⟨⟨result, after⟩, run⟩ :
      ∃ outcome, (evaluate (room + 1) tree Store.root).runFrom .initial = outcome := ⟨_, rfl⟩
    rw [run] at yielded
    cases result with
    | error fault => cases yielded
    | ok inner => exact ⟨room, inner, after, rfl, (Except.ok.inj yielded).symm, run⟩

section Texts

variable {name expression : String} {tree : Tree} {limit : Nat} {value : Value}

/-- **A name that is bound to an expression is read back**, if the text is accepted. -/
theorem binding_read_back (isName : IsNameText name.toList) (noTruth : name ∉ ["true", "false"])
    (isExpression : IsExpression expression tree) (closed : ¬ EndsInComment expression)
    (yielded : (runWithin limit expression Store.root .initial).1.result = .ok value)
    (accepted : (parse (bindingText name expression)).isOk = true) :
    (runWithin limit (bindingText name expression) Store.root .initial).1.result.map Value.seen =
      .ok value.seen := by
  obtain ⟨room, inner, after, rfl, rfl, ran⟩ := isExpression.exists_of_runWithin yielded
  obtain ⟨read, parsed, alike⟩ :=
    Reader.parse_bindingText_of_isOk isName noTruth isExpression closed accepted
  have within := root_lt_of_runFrom isExpression.shaped ran
  exact runWithin_of_unplaced parsed alike (runFrom_bindingTree ran within)

/-- **A parameter is read back** within a limit that is larger by three, if the text is accepted. -/
theorem call_read_back (isName : IsNameText name.toList) (noTruth : name ∉ ["true", "false"])
    (isExpression : IsExpression expression tree)
    (yielded : (runWithin limit expression Store.root .initial).1.result = .ok value)
    (accepted : (parse (callText name expression)).isOk = true) {within : Nat}
    (enough : limit + 3 ≤ within) :
    (runWithin within (callText name expression) Store.root .initial).1.result.map Value.seen =
      .ok value.seen := by
  obtain ⟨room, inner, after, rfl, rfl, ran⟩ := isExpression.exists_of_runWithin yielded
  obtain ⟨read, parsed, alike⟩ := Reader.parse_callText_of_isOk isName noTruth isExpression accepted
  obtain ⟨further, rfl⟩ := Nat.exists_eq_add_of_le' enough
  have shaped := isExpression.shaped
  have larger : (evaluate (further + room + 3) tree Store.root).runFrom .initial =
      (.ok inner, after) := by
    have longer := evaluate_extends (show room + 1 ≤ further + room + 3 by omega) tree Store.root
    rw [longer.runFrom_eq (by simp [ran]), ran]
  have present := ne_nothing_of_runFrom shaped ran
  obtain ⟨after', run⟩ := runFrom_afterFunction shaped larger
  have presentLater : Embedding.afterFunction.value inner ≠ .nothing :=
    mt Embedding.value_eq_nothing.mp present
  have seen := runWithin_of_unplaced parsed alike (runFrom_callTree run presentLater)
  rwa [Embedding.operand_value, Embedding.seen_value] at seen

end Texts

/-- **What is bound is read back.** Let a name be bound that is neither `true` nor `false`, and let
the text of an expression run on an empty store with a value, be it a result, an error or a returned
operand. If the text that binds the name to the expression and reads the name is accepted, and no
comment at the end of the expression swallows the rest, then it runs with a value of the same type
and text. So does the call of a function that reads its parameter, if it is accepted; but it nests
three levels deeper, and may end beyond the limit for this reason. -/
theorem bound_value_read_back {name expression : String} {tree : Tree}
    (isName : IsNameText name.toList) (noTruth : name ∉ ["true", "false"])
    (isExpression : IsExpression expression tree) {limit : Nat} {value : Value}
    (yielded : (runWithin limit expression Store.root .initial).1.result = .ok value) :
    (¬ EndsInComment expression → (parse (bindingText name expression)).isOk = true →
      (runWithin limit (bindingText name expression) Store.root .initial).1.result.map Value.seen =
        .ok value.seen) ∧
    ((parse (callText name expression)).isOk = true → ∀ within,
      let result := (runWithin within (callText name expression) Store.root .initial).1.result
      result.map Value.seen = .ok value.seen ∨
        within < limit + 3 ∧ result = .error (.halted .nestingTooDeep)) := by
  refine ⟨fun closed => binding_read_back isName noTruth isExpression closed yielded,
    fun accepted within => ?_⟩
  intro result
  have larger : ∀ {within}, limit + 3 ≤ within → (runWithin within (callText name expression)
      Store.root .initial).1.result.map Value.seen = .ok value.seen :=
    call_read_back isName noTruth isExpression yielded accepted
  by_cases enough : limit + 3 ≤ within
  · exact Or.inl (larger enough)
  · by_cases deep : result = .error (.halted .nestingTooDeep)
    · exact Or.inr ⟨Nat.lt_of_not_le enough, deep⟩
    · have further := runWithin_extends (Nat.le_of_lt (Nat.lt_of_not_le enough)) deep
      refine Or.inl ?_
      rw [show result = _ from congrArg (fun ran => ran.1.result) further.symm]
      exact larger (Nat.le_refl _)

/-- A word of the language is bound to an array with a function in it, and read back. -/
theorem bound_value_read_back_word :
    let expression := "[fn()\x7b\x7d]"
    ∃ tree value, IsNameText "let".toList ∧ "let" ∉ ["true", "false"] ∧
      IsExpression expression tree ∧ ¬ EndsInComment expression ∧
      (runWithin 5 expression Store.root .initial).1.result = .ok value ∧
      (parse (bindingText "let" expression)).isOk = true ∧
      (runWithin 5 (bindingText "let" expression) Store.root .initial).1.result.map Value.seen =
        .ok value.seen ∧
      (parse (callText "let" expression)).isOk = true ∧
      (runWithin 8 (callText "let" expression) Store.root .initial).1.result.map Value.seen =
        .ok value.seen := by
  intro expression
  obtain ⟨tree, lexemes, accepts, solid, ends⟩ : ∃ tree lexemes,
      Reader.Accepts .initial .start "[fn()\x7b\x7d]".toList lexemes
        (.node .program [.node .expressionStatement [tree]]) ∧
        (Lexeme.solid lexemes).getLast? = some ⟨.closeBracket, [']']⟩ ∧
        lexemes.getLast? = some ⟨.closeBracket, [']']⟩ :=
    ⟨_, _, @Reader.Accepts.token _ _ _ ⟨.openBracket, ['[']⟩ _ _ _ rfl rfl rfl rfl <|
      @Reader.Accepts.token _ _ _ ⟨.fnWord, ['f', 'n']⟩ _ _ _ rfl rfl rfl rfl <|
      @Reader.Accepts.token _ _ _ ⟨.openParen, ['(']⟩ _ _ _ rfl rfl rfl rfl <|
      @Reader.Accepts.token _ _ _ ⟨.closeParen, [')']⟩ _ _ _ rfl rfl rfl rfl <|
      @Reader.Accepts.token _ _ _ ⟨.openBrace, ['\x7b']⟩ _ _ _ rfl rfl rfl rfl <|
      @Reader.Accepts.token _ _ _ ⟨.closeBrace, ['\x7d']⟩ _ _ _ rfl rfl rfl rfl <|
      @Reader.Accepts.token _ _ _ ⟨.closeBracket, [']']⟩ _ _ _ rfl rfl rfl rfl <|
      .ending rfl, by rfl, by rfl⟩
  have isExpression : IsExpression expression tree := by
    obtain ⟨program, parsed⟩ := @exists_program_of_isOk expression (by decide +kernel)
    obtain ⟨others, accepts'⟩ := Reader.accepts_of_parse parsed
    refine ⟨by rw [parsed, (accepts.unique accepts').2], ?_⟩
    rintro last ⟨others, program, accepts', final⟩
    obtain ⟨rfl, -⟩ := accepts.unique accepts'
    cases solid.symm.trans final
    decide
  have closed : ¬ EndsInComment expression := by
    rintro ⟨others, last, program, accepts', comment⟩
    rw [← (accepts.unique accepts').1, List.getLast?_concat] at ends
    cases ends
    cases comment
  have settles : (runWithin 5 expression Store.root .initial).1.result.isOk = true := by
    decide +kernel
  obtain ⟨value, yielded⟩ : ∃ value, (runWithin 5 expression Store.root .initial).1.result =
      .ok value := by
    cases result : (runWithin 5 expression Store.root .initial).1.result with
    | ok value => exact ⟨value, rfl⟩
    | error failure =>
      rw [result] at settles
      cases settles
  have accepted : (parse (bindingText "let" expression)).isOk = true := by decide +kernel
  have accepted' : (parse (callText "let" expression)).isOk = true := by decide +kernel
  have isName : IsNameText "let".toList := by decide
  have noTruth : "let" ∉ ["true", "false"] := by decide
  obtain ⟨bound, called⟩ := bound_value_read_back isName noTruth isExpression yielded
  exact ⟨tree, value, isName, noTruth, isExpression, closed, yielded, accepted,
    bound closed accepted, accepted', (called accepted' 8).resolve_right fun deep =>
      absurd deep.1 (by decide)⟩

/-- A name that is read as a truth value, an expression that ends in a comment, and a call that
nests too deep where the expression does not. -/
theorem bound_value_not_read_back :
    let seen := fun limit source =>
      (runWithin limit source Store.root .initial).1.result.toOption.map fun value =>
        (value.tag?, value.inspect.toOption)
    ((parse (bindingText "true" "5")).isOk = true ∧ (parse (callText "true" "5")).isOk = true ∧
      seen 9 "5" = some (some .integer, some "5") ∧
      seen 9 (bindingText "true" "5") = some (some .boolean, some "true") ∧
      seen 9 (callText "true" "5") = some (some .boolean, some "true")) ∧
    ((parse (bindingText "a" "1 // c")).isOk = true ∧
      seen 9 "1 // c" = some (some .integer, some "1") ∧
      seen 9 (bindingText "a" "1 // c") = some (none, none)) ∧
    ((parse (callText "a" "1")).isOk = true ∧ seen 3 "1" = some (some .integer, some "1") ∧
      seen 3 (callText "a" "1") = none) := by
  decide +kernel

end Scriptlet
