/-
**The program that maps.**

* `Mapping.program`: binds a function that goes through an array; it makes one that calls itself on what
  is left of the array and on the values so far. `Mapping.text` is how it is written.
* `Mapping.OwnCall`: what that function calls by itself.
* `Mapping.Frame`: a call of it, with the scope of that call and the function made there.
* `Mapping.Frame.Runs`: trees are evaluated level by level, and own calls are made as they are. Other
  callees may be applied in another way, so that what is proved here holds of watched evaluations too.

Main statements: `Mapping.Frame.Runs.loop_nil`, `loop_fault`, `loop_error` and `loop_value`, one
iteration; and `Mapping.Frame.Runs.map`, a call begins the first iteration.
-/
import Scriptlet.Proofs.Evaluation.Calling
import Scriptlet.Proofs.Evaluation.Functionless
import Scriptlet.Proofs.Tree.Same
import Scriptlet.Tree.Build

namespace Scriptlet

namespace Eval

/-- What runs alike at first runs alike. -/
theorem runFrom_bind_congr {α β : Type} {first other : Eval α} {store store' : Store}
    (alike : first.runFrom store = other.runFrom store') (next : α → Eval β) :
    (first >>= next).runFrom store = (other >>= next).runFrom store' := by
  rw [runFrom_bind, runFrom_bind, alike]

section Values

variable {evaluate : Tree → ScopeId → Eval Value} {scope : ScopeId} {store middle : Store}
  {before : List Tree} {values : List Value}

/-- After calm values, there is the last one. -/
theorem runFrom_values_last (calmly : Calmly evaluate scope before store values middle) (last : Tree)
    (use : List Value → Eval Value) :
    (do match ← Eval.values evaluate scope (before ++ [last]) with
      | .inl signal => return signal
      | .inr elements => use elements).runFrom store =
    (do let value ← evaluate last scope
        unlessSignal value (use (values ++ [value]))).runFrom middle := by
  obtain ⟨⟨result, after⟩, ran⟩ :
    ∃ outcome, (evaluate last scope).runFrom middle = outcome := ⟨_, rfl⟩
  cases result with
  | error fault =>
    rw [runFrom_bind_of_error ran]
    refine runFrom_bind_of_error ?_ _
    induction calmly with
    | nil => exact runFrom_bind_of_error ran _
    | cons ran' calm _ ih =>
      rw [List.cons_append, Eval.values, runFrom_bind_of_ok ran', if_neg (by simp [calm])]
      exact runFrom_bind_of_error (ih ran) _
  | ok value =>
    by_cases isSignal : value.isSignal = true
    · rw [runFrom_used_signal ran _ isSignal]
      exact runFrom_elements_signal ran isSignal calmly [] use
    · have calm : value.isSignal = false := by simpa using isSignal
      rw [runFrom_used_calm ran _ calm]
      have all : Calmly evaluate scope (before ++ [last]) store (values ++ [value]) after := by
        induction calmly with
        | nil => exact .cons ran calm .nil
        | cons ran' calm' _ ih => exact .cons ran' calm' (ih ran)
      rw [runFrom_bind_of_ok (runFrom_values_calmly all)]

end Values

/-! ### One level of evaluation -/

namespace Levels

variable {evaluate : Nat → Tree → ScopeId → Eval Value}
  {apply : Nat → Value → List Value → Eval Value} (levels : Levels evaluate apply) {limit : Nat}
  {scope : ScopeId} {store middle after : Store}

include levels

/-- A block with one expression is that expression. -/
theorem block_statement (expression : Tree) :
    evaluate (limit + 2) (Build.block [Build.statement expression]) scope =
      evaluate limit expression scope := by
  rw [levels.level]
  show statements (evaluate (limit + 1)) scope .nothing [Build.statement expression] = _
  rw [statements_singleton, levels.level]
  rfl

/-- A name that is bound. -/
theorem identifier {name : String} {value : Value} (found : store.lookup? scope name = some value) :
    (evaluate (limit + 1) (Build.identifier name) scope).runFrom store = (.ok value, store) := by
  rw [levels.level]
  show (Eval.identifier scope name).runFrom store = _
  rw [Eval.identifier, runFrom_bind_of_ok (runFrom_get store), found]
  rfl

/-- The name of a builtin that is not bound. -/
theorem builtin (builtin : Builtin) (unbound : store.lookup? scope builtin.name = none) :
    (evaluate (limit + 1) (Build.identifier builtin.name) scope).runFrom store =
      (.ok (.builtin builtin), store) := by
  rw [levels.level]
  show (Eval.identifier scope builtin.name).runFrom store = _
  rw [Eval.identifier, runFrom_bind_of_ok (runFrom_get store), unbound, Builtin.ofName?_name]
  rfl

/-- A call with its last argument open. -/
theorem call {callee last : Tree} {before : List Tree} {function : Value} {values : List Value}
    (ran : (evaluate limit callee scope).runFrom store = (.ok function, middle))
    (calm : function.isSignal = false)
    (calmly : Calmly (evaluate limit) scope before middle values after) :
    (evaluate (limit + 1) (Build.call callee (before ++ [last])) scope).runFrom store =
      (do let value ← evaluate limit last scope
          unlessSignal value (apply limit function (values ++ [value]))).runFrom after := by
  rw [levels.level]
  exact (runFrom_used_calm ran _ calm).trans (runFrom_values_last calmly last _)

/-- A call with one argument. -/
theorem call_one {callee last : Tree} {function : Value}
    (ran : (evaluate limit callee scope).runFrom store = (.ok function, after))
    (calm : function.isSignal = false) :
    (evaluate (limit + 1) (Build.call callee [last]) scope).runFrom store =
      (do let value ← evaluate limit last scope
          unlessSignal value (apply limit function [value])).runFrom after :=
  levels.call ran calm .nil

/-- A call with two arguments. -/
theorem call_two {callee first last : Tree} {function value : Value} {reached : Store}
    (ran : (evaluate limit callee scope).runFrom store = (.ok function, middle))
    (calm : function.isSignal = false)
    (given : (evaluate limit first scope).runFrom middle = (.ok value, reached))
    (calm' : value.isSignal = false) :
    (evaluate (limit + 1) (Build.call callee [first, last]) scope).runFrom store =
      (do let other ← evaluate limit last scope
          unlessSignal other (apply limit function [value, other])).runFrom reached :=
  @Levels.call _ _ levels _ _ _ _ _ _ _ [first] _ _ ran calm (.cons given calm' .nil)

/-- A binary operator. -/
theorem binary {first second : Tree} {operator : String} {left right : Value}
    (ran : (evaluate limit first scope).runFrom store = (.ok left, middle))
    (calm : left.isSignal = false)
    (ran' : (evaluate limit second scope).runFrom middle = (.ok right, after))
    (calm' : right.isSignal = false) :
    (evaluate (limit + 1) (Build.binary first operator second) scope).runFrom store =
      (applyBinary operator left right).runFrom after := by
  rw [levels.level]
  exact (runFrom_used_calm ran _ calm).trans (runFrom_used_calm ran' _ calm')

/-- A conditional between two expressions. -/
theorem choice {condition consequence alternative : Tree} {truth : Bool}
    (ran : (evaluate (limit + 2) condition scope).runFrom store = (.ok (.boolean truth), after)) :
    (evaluate (limit + 3) (Build.conditional condition (Build.block [Build.statement consequence])
      (some (Build.block [Build.statement alternative]))) scope).runFrom store =
      (do return (← evaluate limit (if truth then consequence else alternative) scope).orNull).runFrom
        after := by
  rw [levels.level]
  refine (runFrom_used_calm ran _ rfl).trans ?_
  cases truth with
  | true =>
    show (do return (← evaluate (limit + 2) (Build.block [_]) scope).orNull : Eval Value).runFrom _ = _
    rw [levels.block_statement, if_pos rfl]
  | false =>
    show (do return (← evaluate (limit + 2) (Build.block [_]) scope).orNull : Eval Value).runFrom _ = _
    rw [levels.block_statement, if_neg Bool.false_ne_true]

/-- A function is made and bound. -/
theorem binding {token : Token} {names : List String} {parameters body : Tree}
    (named : (parameters.children.filterMap Tree.token?).map Token.text = names) :
    (evaluate (limit + 2)
      (.node .letStatement [.leaf token, .node .function [parameters, body]]) scope).runFrom store =
      (.ok .nothing, store.identify.2.bind scope token.text
        (.function store.identities names body scope)) := by
  have made : (evaluate (limit + 1) (.node .function [parameters, body]) scope).runFrom store =
      (.ok (.function store.identities names body scope), store.identify.2) := by
    rw [levels.level, ← named]
    rfl
  rw [levels.level]
  exact runFrom_used_calm made _ rfl

end Levels

end Eval

namespace Tree.SameUnplaced

variable {other : Tree}

/-- A statement that binds a name, with other places. -/
theorem exists_binding {name : String} {value : Tree}
    (same : (Build.binding name value).SameUnplaced other) :
    ∃ token value', other = .node .letStatement [.leaf token, value'] ∧ token.text = name ∧
      value.SameUnplaced value' := by
  obtain ⟨others, rfl, all⟩ := exists_node same
  obtain _ | ⟨first, _ | ⟨second, _ | _⟩⟩ := all
  obtain ⟨token, rfl, text⟩ := first.exists_leaf
  exact ⟨token, _, rfl, text, second⟩

/-- A function with other places. -/
theorem exists_function {names : List String} {body : Tree}
    (same : (Build.function names body).SameUnplaced other) :
    ∃ parameters body', other = .node .function [parameters, body'] ∧
      (parameters.children.filterMap token?).map Token.text = names ∧ body.SameUnplaced body' := by
  obtain ⟨others, rfl, all⟩ := exists_node same
  obtain _ | ⟨first, _ | ⟨second, _ | _⟩⟩ := all
  obtain ⟨words, rfl, all⟩ := first.exists_node
  refine ⟨_, _, rfl, ?_, second⟩
  replace all := List.forall₂_map_left_iff.mp all
  clear first same
  induction all with
  | nil => rfl
  | cons word _ ih =>
    obtain ⟨token, rfl, text⟩ := word.exists_leaf
    exact congrArg₂ List.cons text ih

end Tree.SameUnplaced

/-! ### The program -/

namespace Mapping

/-- The builtins that the program calls. -/
def helpers : List Builtin :=
  [.len, .first, .rest, .push]

/-- The condition that no element is left. -/
def condition : Tree :=
  Build.binary (Build.call (Build.identifier "len") [Build.identifier "arr"]) "==" (Build.integer 0)

/-- The call that goes on with the rest. -/
def continuation : Tree :=
  Build.call (Build.identifier "iter") [
    Build.call (Build.identifier "rest") [Build.identifier "arr"],
    Build.call (Build.identifier "push") [Build.identifier "accumulated",
      Build.call (Build.identifier "f") [Build.call (Build.identifier "first") [Build.identifier "arr"]]]]

/-- The body of the function that goes through the array. -/
def loopBody : Tree :=
  Build.block [Build.statement (Build.conditional condition
    (Build.block [Build.statement (Build.identifier "accumulated")])
    (some (Build.block [Build.statement continuation])))]

/-- The call that starts with the whole array. -/
def beginning : Tree :=
  Build.statement (Build.call (Build.identifier "iter") [Build.identifier "arr", Build.array []])

/-- The body of `map`. -/
def mapBody : Tree :=
  Build.block [Build.binding "iter" (Build.function ["arr", "accumulated"] loopBody), beginning]

/-- The program that binds `map`. -/
def program : Tree :=
  Build.program [Build.binding "map" (Build.function ["arr", "f"] mapBody)]

/-- The program as it is written. -/
def text : String :=
  "let map = fn(arr, f) \x7b\n" ++
  "    let iter = fn(arr, accumulated) \x7b\n" ++
  "        if (len(arr) == 0) \x7b\n" ++
  "            accumulated\n" ++
  "        \x7d else \x7b\n" ++
  "            iter(rest(arr), push(accumulated, f(first(arr))));\n" ++
  "        \x7d\n" ++
  "    \x7d;\n" ++
  "    iter(arr, []);\n" ++
  "\x7d;\n"

/-- It reads as that program. -/
theorem exists_parse_text : ∃ tree, parse text = .ok tree ∧ program.SameUnplaced tree := by
  have reads : (parse text).toOption.map Tree.unplaced = some program.unplaced := by
    decide +kernel
  cases accepted : parse text with
  | error flaw =>
    rw [accepted] at reads
    cases reads
  | ok tree =>
    rw [accepted] at reads
    exact ⟨tree, rfl, Option.some.inj reads⟩

theorem identifier_shaped (name : String) :
    (Build.identifier name).Shaped (fun _ => True) .expression :=
  .identifier rfl trivial

/-- The body of the function that goes through the array is one of a program. -/
theorem loopBody_shaped : loopBody.Shaped (fun _ => True) .block := by
  have name := identifier_shaped
  have one : ∀ {callee argument : Tree}, callee.Shaped (fun _ => True) .expression →
      argument.Shaped (fun _ => True) .expression →
      (Build.call callee [argument]).Shaped (fun _ => True) .expression :=
    fun callee argument => .call callee (List.forall_mem_singleton.mpr argument)
  have two : ∀ {callee first second : Tree}, callee.Shaped (fun _ => True) .expression →
      first.Shaped (fun _ => True) .expression → second.Shaped (fun _ => True) .expression →
      (Build.call callee [first, second]).Shaped (fun _ => True) .expression :=
    fun callee first second => .call callee (List.forall_mem_cons.mpr
      ⟨first, List.forall_mem_singleton.mpr second⟩)
  have block : ∀ {expression : Tree}, expression.Shaped (fun _ => True) .expression →
      (Build.block [Build.statement expression]).Shaped (fun _ => True) .block :=
    fun expression => .block (List.forall_mem_singleton.mpr (.expressing expression))
  refine block (.choice (.binary (by decide) trivial (one (name _) (name _)) (.integer rfl trivial))
    (block (name _)) (block (two (name _) (one (name _) (name _)) (two (name _) (name _) ?_))))
  exact one (name _) (one (name _) (name _))

/-- There is no function in it. -/
theorem loopBody_functionless : loopBody.Functionless := by
  simp [loopBody, condition, continuation, Build.block, Build.statement, Build.conditional,
    Build.binary, Build.call, Build.identifier, Build.integer, Build.word, Build.operator]

/-- The call that starts is a statement of a program. -/
theorem beginning_shaped : beginning.Shaped (fun _ => True) .statement := by
  exact .expressing (.call (identifier_shaped _) (List.forall_mem_cons.mpr
    ⟨identifier_shaped _, List.forall_mem_singleton.mpr (.array (List.forall_mem_nil _))⟩))

/-- There is no function in it. -/
theorem beginning_functionless : beginning.Functionless := by
  simp [beginning, Build.statement, Build.call, Build.identifier, Build.array, Build.word]

/-- **The program binds the function**, whatever its places. -/
theorem runFrom_program {evaluate : Nat → Tree → ScopeId → Eval Value}
    {apply : Nat → Value → List Value → Eval Value} (levels : Eval.Levels evaluate apply)
    {tree : Tree} (same : program.SameUnplaced tree) :
    ∃ body, mapBody.SameUnplaced body ∧ ∀ limit scope store,
      (evaluate (limit + 3) tree scope).runFrom store = (.ok .nothing, store.identify.2.bind scope
        "map" (.function store.identities ["arr", "f"] body scope)) := by
  obtain ⟨others, rfl, all⟩ := same.exists_node
  obtain _ | ⟨statement, _ | _⟩ := all
  obtain ⟨token, value, rfl, text, same⟩ := statement.exists_binding
  obtain ⟨parameters, body, rfl, named, same⟩ := same.exists_function
  refine ⟨body, same, fun limit scope store => ?_⟩
  rw [levels.level]
  show (do return (← Eval.statements (evaluate (limit + 2)) scope .nothing [_]).operand :
    Eval Value).runFrom store = _
  rw [Eval.statements_singleton, Eval.runFrom_return, levels.binding named, text]
  rfl

/-- The parts of the body of `map`, whatever their places. -/
theorem exists_parts {body : Tree} (same : mapBody.SameUnplaced body) :
    ∃ (token : Token) (parameters loop first : Tree),
      body = .node .block
        [.node .letStatement [.leaf token, .node .function [parameters, loop]], first] ∧
      token.text = "iter" ∧
      (parameters.children.filterMap Tree.token?).map Token.text = ["arr", "accumulated"] ∧
      loopBody.SameUnplaced loop ∧ beginning.SameUnplaced first := by
  obtain ⟨others, rfl, all⟩ := same.exists_node
  obtain _ | ⟨statement, _ | ⟨first, _ | _⟩⟩ := all
  obtain ⟨token, value, rfl, text, same⟩ := statement.exists_binding
  obtain ⟨parameters, loop, rfl, named, same⟩ := same.exists_function
  exact ⟨token, parameters, loop, _, rfl, text, named, same, first⟩

/-- What `map` calls by itself: the builtins on arrays that are the given one or made since, and the
function that it makes first. -/
inductive OwnCall (given first : Nat) : Value → List Value → Prop
  | helper {builtin : Builtin} {identity : Nat} {elements others : List Value} : builtin ∈ helpers →
      identity = given ∨ first ≤ identity →
      OwnCall given first (.builtin builtin) (.array identity elements :: others)
  | loop {names : List String} {body : Tree} {scope : ScopeId} {arguments : List Value} :
      OwnCall given first (.function first names body scope) arguments

/-- The names of the builtins are free on an outermost scope. -/
def Free (store : Store) (home : ScopeId) : Prop :=
  ∃ bindings, store.scopes[home]? = some ⟨none, bindings⟩ ∧
    ∀ builtin ∈ helpers, bindings.lookup builtin.name = none

theorem Free.kept {store after : Store} {home : ScopeId} (free : Free store home)
    (kept : store.Kept after) : Free after home := by
  obtain ⟨bindings, here, free⟩ := free
  exact ⟨bindings, by rw [kept.scopes _ (Array.getElem?_eq_some_iff.mp here).1, here], free⟩

/-! ### The scopes of a call of `map` -/

/-- A call of `map`, which is made in the scope `home`: its scope, the array and the callee that it is
given, and the function that goes through the array. -/
structure Frame where
  home : ScopeId
  id : ScopeId
  given : Nat
  elements : List Value
  callee : Value
  calm : callee.isSignal = false
  identity : Nat
  body : Tree
  same : loopBody.SameUnplaced body

namespace Frame

/-- The function that goes through the array. -/
def loop (frame : Frame) : Value :=
  .function frame.identity ["arr", "accumulated"] frame.body frame.id

/-- The identities of the arrays that `map` works on. -/
def Owns (frame : Frame) (identity : Nat) : Prop :=
  identity = frame.given ∨ frame.identity ≤ identity

/-- The scope of the call is as it is made, and the names of the builtins are free around it. -/
structure Stands (frame : Frame) (store : Store) : Prop where
  older : frame.home < frame.id
  here : store.scopes[frame.id]? = some ⟨some frame.home,
    [("arr", .array frame.given frame.elements), ("f", frame.callee), ("iter", frame.loop)]⟩
  free : Free store frame.home
  made : frame.identity < store.identities

/-- The scope of a call of the function that goes through the array. -/
structure Inside (frame : Frame) (items accumulated : Value) (id : ScopeId) (store : Store) :
    Prop where
  younger : frame.id < id
  here : store.scopes[id]? =
    some ⟨some frame.id, [("arr", items), ("accumulated", accumulated)]⟩
  stands : frame.Stands store

variable {frame : Frame} {store after : Store} {id : ScopeId} {items accumulated : Value}

namespace Stands

/-- Scopes that are as they were still stand. -/
theorem kept (stands : frame.Stands store) (kept : store.Kept after) : frame.Stands after where
  older := stands.older
  here := by
    have inside := (Array.getElem?_eq_some_iff.mp stands.here).1
    rw [kept.scopes _ inside, stands.here]
  free := stands.free.kept kept
  made := Nat.lt_of_lt_of_le stands.made kept.identities

/-- The scope of the call lies in the one that `map` was made in. -/
theorem outward (stands : frame.Stands store) : store.Outward frame.id [frame.id, frame.home] := by
  obtain ⟨bindings, home, -⟩ := stands.free
  refine .around ?_ (.outermost ?_)
  · rw [Store.getElem?_outers, stands.here]
    rfl
  · rw [Store.getElem?_outers, home]
    rfl

/-- What a search finds is looked up. -/
theorem lookup? (stands : frame.Stands store) {name : String} {result : Option Value}
    (search : store.Search name frame.id result) : store.lookup? frame.id name = result :=
  stands.outward.lookup?_eq (Nat.succ_le_succ (Nat.zero_lt_of_lt stands.older)) search

/-- The scope of a call of the function that goes through the array. -/
theorem inside (stands : frame.Stands store) (items accumulated : Value) :
    frame.Inside items accumulated store.scopes.size
      (store.called frame.id [("arr", items), ("accumulated", accumulated)]) where
  younger := (Array.getElem?_eq_some_iff.mp stands.here).1
  here := Store.getElem?_called
  stands := stands.kept Store.kept_called

end Stands

namespace Inside

/-- The way outward leads through the scope of the call of `map`. -/
theorem outward (inside : frame.Inside items accumulated id store) :
    store.Outward id [id, frame.id, frame.home] := by
  refine .around ?_ inside.stands.outward
  rw [Store.getElem?_outers, inside.here]
  rfl

/-- What a search finds is looked up. -/
theorem lookup? (inside : frame.Inside items accumulated id store) {name : String}
    {result : Option Value} (search : store.Search name id result) :
    store.lookup? id name = result :=
  inside.outward.lookup?_eq (Nat.succ_le_succ
    (Nat.lt_of_le_of_lt (Nat.zero_lt_of_lt inside.stands.older) inside.younger)) search

theorem lookup_items (inside : frame.Inside items accumulated id store) :
    store.lookup? id "arr" = some items :=
  inside.lookup? (.bound inside.here rfl)

theorem lookup_accumulated (inside : frame.Inside items accumulated id store) :
    store.lookup? id "accumulated" = some accumulated :=
  inside.lookup? (.bound inside.here rfl)

theorem lookup_callee (inside : frame.Inside items accumulated id store) :
    store.lookup? id "f" = some frame.callee :=
  inside.lookup? (.around inside.here rfl rfl (.bound inside.stands.here rfl))

theorem lookup_loop (inside : frame.Inside items accumulated id store) :
    store.lookup? id "iter" = some frame.loop :=
  inside.lookup? (.around inside.here rfl rfl (.bound inside.stands.here rfl))

/-- The builtins are found. -/
theorem lookup_helper (inside : frame.Inside items accumulated id store) {builtin : Builtin}
    (helper : builtin ∈ helpers) : store.lookup? id builtin.name = none := by
  obtain ⟨bindings, home, free⟩ := inside.stands.free
  refine inside.lookup? (.around inside.here ?_ rfl (.around inside.stands.here ?_ rfl
    (.nowhere home (free builtin helper) rfl)))
  · cases builtin <;> rfl
  · cases builtin <;> rfl

/-- Identities do not count. -/
theorem identify (inside : frame.Inside items accumulated id store) :
    frame.Inside items accumulated id store.identify.2 where
  younger := inside.younger
  here := inside.here
  stands := inside.stands.kept store.kept_identify

end Inside

/-! ### One iteration -/

/-- Trees are evaluated level by level, and what `map` calls by itself is called as it is; other
callees may be applied in another way. -/
structure Runs (frame : Frame) (evaluate : Nat → Tree → ScopeId → Eval Value)
    (apply : Nat → Value → List Value → Eval Value) : Prop extends Eval.Levels evaluate apply where
  own : ∀ limit {callee arguments}, OwnCall frame.given frame.identity callee arguments →
    apply limit callee arguments =
      Eval.call (Value.inspectWithin limit) (evaluate limit) callee arguments

/-- The store in which the callee is applied to the first of the elements that are left. -/
def ready (frame : Frame) (items accumulated : Value) (store : Store) : Store :=
  (store.called frame.id [("arr", items), ("accumulated", accumulated)]).identify.2

/-- What a call yields where its body ends in a conditional. -/
def passed (ended : Except Fault Value × Store) : Except Fault Value × Store :=
  ((ended.1.map Value.orNull).map Value.unwrap, ended.2)

/-- What follows after the value of the callee for the first element. -/
def goOn (frame : Frame) (apply : Value → List Value → Eval Value) (rest : Value)
    (values : List Value) (value : Value) : Eval Value :=
  Eval.unlessSignal value do
    let identity ← modifyGet Store.identify
    apply frame.loop [rest, .array identity (values ++ [value])]

namespace Runs

variable {evaluate : Nat → Tree → ScopeId → Eval Value}
  {apply : Nat → Value → List Value → Eval Value} (runs : frame.Runs evaluate apply)
  {limit identity last : Nat} {element : Value} {elements values : List Value}

include runs

/-- A builtin is called for the elements that are left. -/
theorem ofItems (builtin : Builtin) (helper : builtin ∈ helpers) (owns : frame.Owns identity)
    (inside : frame.Inside (.array identity elements) accumulated id store) :
    (evaluate (limit + 2) (Build.call (Build.identifier builtin.name) [Build.identifier "arr"])
      id).runFrom store =
        (Eval.callBuiltin (Value.inspectWithin (limit + 1)) builtin
          [.array identity elements]).runFrom store := by
  rw [runs.call_one (runs.builtin builtin (inside.lookup_helper helper)) rfl,
    Eval.runFrom_used_calm (runs.identifier inside.lookup_items) _ rfl,
    runs.own _ (.helper helper owns)]
  rfl

/-- The condition holds when no element is left. -/
theorem condition (owns : frame.Owns identity)
    (inside : frame.Inside (.array identity elements) accumulated id store) :
    (evaluate (limit + 3) condition id).runFrom store = (.ok (.boolean elements.isEmpty), store) := by
  have measured : (evaluate (limit + 2)
      (Build.call (Build.identifier "len") [Build.identifier "arr"]) id).runFrom store =
        (.ok (.integer elements.length), store) :=
    runs.ofItems .len (by decide) owns inside
  have zero : (evaluate (limit + 2) (Build.integer 0) id).runFrom store = (.ok (.integer 0), store) := by
    rw [runs.level]
    rfl
  rw [Mapping.condition, runs.binary measured rfl zero rfl]
  cases elements with
  | nil => rfl
  | cons element rest =>
    have some_ : (((element :: rest).length : Int) == 0) = false :=
      beq_eq_false_iff_ne.mpr (Int.natCast_ne_zero.mpr (Nat.succ_ne_zero rest.length))
    show (Except.ok (Value.boolean (((element :: rest).length : Int) == 0)), store) = _
    rw [some_]
    rfl

/-- The value for the first element is pushed. -/
theorem pushed (owns : frame.Owns last) (rest value : Value) :
    (do let more ← Eval.unlessSignal value
          (apply (limit + 3) (.builtin .push) [.array last values, value])
        Eval.unlessSignal more (apply (limit + 4) frame.loop [rest, more])) =
      frame.goOn (apply (limit + 4)) rest values value := by
  rw [goOn, runs.own _ (.helper (by decide) owns)]
  by_cases isSignal : value.isSignal = true
  · simp [Eval.unlessSignal, isSignal]
  · simp only [Eval.unlessSignal, isSignal, Bool.false_eq_true, if_false]
    rfl

/-- **The callee is applied to the first element**, and its value is used. -/
theorem continuation (owns : frame.Owns identity) (owns' : frame.Owns last)
    (calm : element.isSignal = false)
    (inside : frame.Inside (.array identity (element :: elements)) (.array last values) id store) :
    (evaluate (limit + 5) continuation id).runFrom store =
      (do let value ← apply (limit + 2) frame.callee [element]
          frame.goOn (apply (limit + 4)) (.array store.identities elements) values value).runFrom
        store.identify.2 := by
  have rest : (evaluate (limit + 4) (Build.call (Build.identifier "rest") [Build.identifier "arr"])
      id).runFrom store = (.ok (.array store.identities elements), store.identify.2) :=
    runs.ofItems .rest (by decide) owns inside
  have inside' := inside.identify
  have first : (evaluate (limit + 2)
      (Build.call (Build.identifier "first") [Build.identifier "arr"]) id).runFrom
        store.identify.2 = (.ok element, store.identify.2) :=
    runs.ofItems .first (by decide) owns inside'
  have applied : (evaluate (limit + 3) (Build.call (Build.identifier "f")
      [Build.call (Build.identifier "first") [Build.identifier "arr"]]) id).runFrom
        store.identify.2 = (apply (limit + 2) frame.callee [element]).runFrom store.identify.2 := by
    rw [runs.call_one (runs.identifier inside'.lookup_callee) frame.calm,
      Eval.runFrom_used_calm first _ calm]
  have push : (evaluate (limit + 3) (Build.identifier "push") id).runFrom store.identify.2 =
      (.ok (.builtin .push), store.identify.2) :=
    runs.builtin .push (inside'.lookup_helper (by decide))
  rw [Mapping.continuation, runs.call_two (runs.identifier inside.lookup_loop) rfl rest rfl]
  refine (Eval.runFrom_bind_congr ((runs.call_two push rfl
    (runs.identifier inside'.lookup_accumulated) rfl).trans
      (Eval.runFrom_bind_congr applied _)) _).trans ?_
  rw [bind_assoc]
  simp only [runs.pushed owns']

/-- The function that goes through the array is called. -/
theorem loop (limit : Nat) (items accumulated : Value) (store : Store) :
    (apply limit frame.loop [items, accumulated]).runFrom store =
      (do return (← evaluate limit loopBody store.scopes.size).unwrap).runFrom
        (store.called frame.id [("arr", items), ("accumulated", accumulated)]) := by
  rw [Frame.loop, runs.own _ .loop, Eval.runFrom_call,
    runs.of_functionless loopBody_shaped loopBody_functionless frame.same]
  rfl

/-- Its body is what is accumulated, or the call that goes on. -/
theorem body (owns : frame.Owns identity)
    (inside : frame.Inside (.array identity elements) accumulated id store) :
    (evaluate (limit + 6) loopBody id).runFrom store =
      (do return (← evaluate (limit + 1)
        (if elements.isEmpty then Build.identifier "accumulated" else Mapping.continuation)
          id).orNull).runFrom store := by
  rw [loopBody, runs.block_statement]
  exact runs.choice (runs.condition owns inside)

/-- **No element is left**: the values are what is accumulated. -/
theorem loop_nil (owns : frame.Owns identity) (stands : frame.Stands store) :
    (apply (limit + 6) frame.loop [.array identity [], .array last values]).runFrom store =
      (.ok (.array last values), store.called frame.id
        [("arr", .array identity []), ("accumulated", .array last values)]) := by
  have inside := stands.inside (.array identity []) (.array last values)
  rw [runs.loop, Eval.runFrom_return, runs.body owns inside, Eval.runFrom_return,
    if_pos (by rfl), runs.identifier inside.lookup_accumulated]
  rfl

/-- **The callee is applied to the first element that is left**, and its value is used. -/
theorem loop_cons (owns : frame.Owns identity) (owns' : frame.Owns last)
    (calm : element.isSignal = false) (stands : frame.Stands store) :
    (apply (limit + 10) frame.loop
        [.array identity (element :: elements), .array last values]).runFrom store =
      passed ((do
          let value ← apply (limit + 2) frame.callee [element]
          frame.goOn (apply (limit + 4)) (.array store.identities elements) values value).runFrom
        (frame.ready (.array identity (element :: elements)) (.array last values) store)) := by
  have inside := stands.inside (.array identity (element :: elements)) (.array last values)
  rw [runs.loop, Eval.runFrom_return, runs.body owns inside, Eval.runFrom_return,
    if_neg (by simp), runs.continuation owns owns' calm inside]
  rfl

section Applied

variable {value : Value} {fault : Fault} (owns : frame.Owns identity) (owns' : frame.Owns last)
  (calm : element.isSignal = false) (stands : frame.Stands store)

include owns owns' calm stands

/-- A fault of the callee ends the call. -/
theorem loop_fault
    (ran : (apply (limit + 2) frame.callee [element]).runFrom (frame.ready
      (.array identity (element :: elements)) (.array last values) store) = (.error fault, after)) :
    (apply (limit + 10) frame.loop
        [.array identity (element :: elements), .array last values]).runFrom store =
      (.error fault, after) := by
  rw [runs.loop_cons owns owns' calm stands, Eval.runFrom_bind_of_error ran]
  rfl

/-- An error of the callee is what the call yields. -/
theorem loop_error
    (ran : (apply (limit + 2) frame.callee [element]).runFrom (frame.ready
      (.array identity (element :: elements)) (.array last values) store) = (.ok value, after))
    (isError : value.isError = true) :
    (apply (limit + 10) frame.loop
        [.array identity (element :: elements), .array last values]).runFrom store =
      (.ok value, after) := by
  rw [runs.loop_cons owns owns' calm stands, Eval.runFrom_bind_of_ok ran, goOn]
  cases value <;> first | rfl | cases isError

/-- Any other value is added to those before, and the call goes on with the rest. -/
theorem loop_value
    (ran : (apply (limit + 2) frame.callee [element]).runFrom (frame.ready
      (.array identity (element :: elements)) (.array last values) store) = (.ok value, after))
    (calm' : value.isSignal = false) :
    (apply (limit + 10) frame.loop
        [.array identity (element :: elements), .array last values]).runFrom store =
      passed ((apply (limit + 4) frame.loop [.array store.identities elements,
        .array after.identities (values ++ [value])]).runFrom after.identify.2) := by
  rw [runs.loop_cons owns owns' calm stands, Eval.runFrom_bind_of_ok ran, goOn, Eval.unlessSignal,
    if_neg (by simp [calm'])]
  rfl

end Applied

end Runs

/-- The store in which the function starts to go through the array, but for the new one. -/
def begun (frame : Frame) (store : Store) : Store :=
  store.identify.2.called frame.home
    [("arr", .array frame.given frame.elements), ("f", frame.callee), ("iter", frame.loop)]

theorem kept_begun (frame : Frame) (store : Store) : store.Kept (frame.begun store) :=
  store.kept_identify.trans Store.kept_called

/-- The scope of a call of `map` stands as soon as its function is made. -/
theorem stands_begun (fresh : frame.id = store.scopes.size) (newest : frame.identity = store.identities)
    (free : Free store frame.home) : frame.Stands (frame.begun store) where
  older := by
    obtain ⟨bindings, home, -⟩ := free
    rw [fresh]
    exact (Array.getElem?_eq_some_iff.mp home).1
  here := by
    rw [fresh]
    exact Store.getElem?_called
  free := free.kept (frame.kept_begun store)
  made := by
    rw [newest]
    exact Nat.lt_succ_self store.identities

/-- The function that goes through the array is made and bound on the scope of the call. -/
theorem bind_loop (fresh : frame.id = store.scopes.size) (newest : frame.identity = store.identities) :
    (store.called frame.home
      [("arr", .array frame.given frame.elements), ("f", frame.callee)]).identify.2.bind
        store.scopes.size "iter" (.function store.identities ["arr", "accumulated"] frame.body
          store.scopes.size) = frame.begun store := by
  show (store.identify.2.called frame.home _).bind store.identify.2.scopes.size _ _ = _
  rw [Store.bind_called, begun, loop, newest, fresh]
  rfl

namespace Runs

variable {evaluate : Nat → Tree → ScopeId → Eval Value}
  {apply : Nat → Value → List Value → Eval Value} (runs : frame.Runs evaluate apply)
  {token : Token} {parameters first : Tree}

include runs

/-- It is called with the array and a new one without elements. -/
theorem begins (stands : frame.Stands store) (same : beginning.SameUnplaced first) (limit : Nat) :
    (evaluate (limit + 3) first frame.id).runFrom store =
      (apply (limit + 1) frame.loop [.array frame.given frame.elements,
        .array store.identities []]).runFrom store.identify.2 := by
  have empty : (evaluate (limit + 1) (Build.array []) frame.id).runFrom store =
      (.ok (.array store.identities []), store.identify.2) := by
    rw [runs.level]
    rfl
  have loop : store.lookup? frame.id "iter" = some frame.loop :=
    stands.lookup? (.bound stands.here rfl)
  have items : store.lookup? frame.id "arr" = some (.array frame.given frame.elements) :=
    stands.lookup? (.bound stands.here rfl)
  rw [runs.of_functionless beginning_shaped beginning_functionless same, beginning, runs.level]
  show (evaluate (limit + 2) (Build.call _ [_, _]) _).runFrom _ = _
  rw [runs.call_two (runs.identifier loop) rfl (runs.identifier items) rfl,
    Eval.runFrom_used_calm empty _ rfl]

/-- **A call of `map`** makes the function that goes through the array, and calls it with the array
and a new one without elements. -/
theorem map (fresh : frame.id = store.scopes.size) (newest : frame.identity = store.identities)
    (free : Free store frame.home) (text : token.text = "iter")
    (named : (parameters.children.filterMap Tree.token?).map Token.text = ["arr", "accumulated"])
    (same : beginning.SameUnplaced first) (limit identity : Nat) :
    (Eval.call (Value.inspectWithin (limit + 4)) (evaluate (limit + 4))
        (.function identity ["arr", "f"] (.node .block
          [.node .letStatement [.leaf token, .node .function [parameters, frame.body]], first])
            frame.home) [.array frame.given frame.elements, frame.callee]).runFrom store =
      (do return (← apply (limit + 1) frame.loop [.array frame.given frame.elements,
        .array (store.identities + 1) []]).unwrap).runFrom (frame.begun store).identify.2 := by
  have bound := @Eval.Levels.binding _ _ runs.toLevels (limit + 1) store.scopes.size
    (store.called frame.home [("arr", .array frame.given frame.elements), ("f", frame.callee)]) token
    _ parameters frame.body named
  have body : (evaluate (limit + 4) (.node .block
      [.node .letStatement [.leaf token, .node .function [parameters, frame.body]], first])
        store.scopes.size).runFrom (store.called frame.home
          [("arr", .array frame.given frame.elements), ("f", frame.callee)]) =
      (evaluate (limit + 3) first store.scopes.size).runFrom (frame.begun store) := by
    rw [runs.level, ← bind_loop fresh newest, ← text]
    refine (Eval.runFrom_statements_calm bound rfl .nothing [first]).trans ?_
    rw [Eval.statements_singleton]
    rfl
  have begins := runs.begins (frame.stands_begun fresh newest free) same limit
  rw [fresh] at begins
  rw [Eval.runFrom_call]
  exact Eval.runFrom_bind_congr (body.trans begins) _

end Runs

end Frame

end Mapping

end Scriptlet
