/-
**Typed programs meet no runtime error.**

Names are given one of three types each. An expression without functions, arrays and hashes has a
type if its operators are given operands of the right types, and if its names are bound by then.

* `Scalar`: the three types; `Value.IsOf`: a value of one of them.
* `Tree.Typed`: an expression, a statement or a block of a type, once some names are bound.
* `Tree.Ordered`: statements that bind names to values of their types, and typed expressions, where
  every name is bound before it is used.
* `Store.Typed`: every name bound on the root has a value of its type.

Main statements: one level of evaluation yields values of the right types (`Evaluates.step`), with a
lemma for each operator before it; by induction on the limit so does every evaluation
(`evaluates_typed`), and statements in turn find their names bound (`statements_typed`). A typed
program yields no error, and at every moment what its trees yield and what its names are bound to
has the right type (`typed_sound`).
-/
import Scriptlet.Proofs.Evaluation.Safety
import Scriptlet.Proofs.Store.Names
import Scriptlet.Tree.Build

namespace Scriptlet

/-- The types of expressions without functions, arrays and hashes. -/
inductive Scalar where
  | integer
  | boolean
  | string
  deriving DecidableEq, Repr

/-- The type that the values of a type are known by. -/
def Scalar.tag : Scalar → Tag
  | integer => .integer
  | boolean => .boolean
  | string => .string

namespace Value

/-- A value of a type. -/
def IsOf (value : Value) (scalar : Scalar) : Prop :=
  value.tag? = some scalar.tag

variable {value : Value} {scalar : Scalar}

theorem IsOf.exists_integer (isOf : value.IsOf .integer) : ∃ number, value = .integer number := by
  cases value <;> first | exact ⟨_, rfl⟩ | cases isOf

theorem IsOf.exists_string (isOf : value.IsOf .string) :
    ∃ identity text, value = .string identity text := by
  cases value <;> first | exact ⟨_, _, rfl⟩ | cases isOf

/-- A value of a type is something, and no signal. -/
theorem IsOf.calm (isOf : value.IsOf scalar) : value.isSignal = false ∧ value.orNull = value := by
  cases value with
  | returned | error => cases scalar <;> cases isOf
  | nothing => cases isOf
  | _ => exact ⟨rfl, rfl⟩

theorem IsOf.isError (isOf : value.IsOf scalar) : value.isError = false := by
  cases value with
  | error => cases scalar <;> cases isOf
  | _ => rfl

end Value

namespace Tree

/-- Expressions, statements and blocks of a type, where names have the given types and some of them
are bound. -/
inductive Typed (types : String → Scalar) (bound : List String) : Role → Tree → Scalar → Prop
  | integer {literal : Token} {number : Int} : Number.read literal.text = .ok number →
      Typed types bound .expression (.node .integer [.leaf literal]) .integer
  | boolean (literal : Token) :
      Typed types bound .expression (.node .boolean [.leaf literal]) .boolean
  | string (literal : Token) :
      Typed types bound .expression (.node .string [.leaf literal]) .string
  | identifier {name : Token} : name.text ∈ bound →
      Typed types bound .expression (.node .identifier [.leaf name]) (types name.text)
  | arithmetic {left right : Tree} {operator : Token} : operator.text ∈ ["+", "-", "*", "/"] →
      Typed types bound .expression left .integer → Typed types bound .expression right .integer →
      Typed types bound .expression (.node .binary [left, .leaf operator, right]) .integer
  | negation {right : Tree} {operator : Token} : operator.text = "-" →
      Typed types bound .expression right .integer →
      Typed types bound .expression (.node .unary [.leaf operator, right]) .integer
  | order {left right : Tree} {operator : Token} : operator.text ∈ ["<", ">"] →
      Typed types bound .expression left .integer → Typed types bound .expression right .integer →
      Typed types bound .expression (.node .binary [left, .leaf operator, right]) .boolean
  | equality {left right : Tree} {operator : Token} {one other : Scalar} :
      operator.text ∈ ["==", "!="] →
      Typed types bound .expression left one → Typed types bound .expression right other →
      Typed types bound .expression (.node .binary [left, .leaf operator, right]) .boolean
  | denial {right : Tree} {operator : Token} {one : Scalar} : operator.text = "!" →
      Typed types bound .expression right one →
      Typed types bound .expression (.node .unary [.leaf operator, right]) .boolean
  | joining {left right : Tree} {operator : Token} : operator.text = "+" →
      Typed types bound .expression left .string → Typed types bound .expression right .string →
      Typed types bound .expression (.node .binary [left, .leaf operator, right]) .string
  | choice {condition consequence alternative : Tree} {one scalar : Scalar} :
      Typed types bound .expression condition one → Typed types bound .block consequence scalar →
      Typed types bound .block alternative scalar →
      Typed types bound .expression (.node .conditional [condition, consequence, alternative])
        scalar
  | expressing {value : Tree} {scalar : Scalar} : Typed types bound .expression value scalar →
      Typed types bound .statement (.node .expressionStatement [value]) scalar
  | block {statement : Tree} {scalar : Scalar} : Typed types bound .statement statement scalar →
      Typed types bound .block (.node .block [statement]) scalar

/-- Statements in turn that bind names to values of their types, and expressions of some type, where
every name is bound before it is used. -/
inductive Ordered (types : String → Scalar) : List String → List Tree → Prop
  | nil {bound : List String} : Ordered types bound []
  | binding {bound : List String} {name : Token} {value : Tree} {rest : List Tree} :
      Typed types bound .expression value (types name.text) →
      Ordered types (name.text :: bound) rest →
      Ordered types bound (.node .letStatement [.leaf name, value] :: rest)
  | expressing {bound : List String} {statement : Tree} {scalar : Scalar} {rest : List Tree} :
      Typed types bound .statement statement scalar → Ordered types bound rest →
      Ordered types bound (statement :: rest)

/-- **A tree has one type**, whatever names are bound. -/
theorem Typed.unique {types : String → Scalar} {bound bound' : List String} {role role' : Role}
    {tree : Tree} {scalar other : Scalar} (typed : tree.Typed types bound role scalar)
    (typed' : tree.Typed types bound' role' other) : other = scalar := by
  -- no operator both calculates and compares
  have apart : ∀ text ∈ ["+", "-", "*", "/"], text ∉ ["<", ">"] ∧ text ∉ ["==", "!="] := by decide
  induction typed generalizing role' other with
  | integer | boolean | string | identifier => cases typed'; rfl
  | negation spelled => cases typed' with
    | negation => rfl
    | denial spelled' => simp [spelled] at spelled'
  | denial spelled => cases typed' with
    | negation spelled' => simp [spelled] at spelled'
    | denial => rfl
  | arithmetic spelled _ _ ih => cases typed' with
    | arithmetic => rfl
    | joining _ left => cases ih left
    | order spelled' => exact absurd spelled' (apart _ spelled).1
    | equality spelled' => exact absurd spelled' (apart _ spelled).2
  | order spelled => cases typed' with
    | order | equality => rfl
    | arithmetic spelled' => exact absurd spelled (apart _ spelled').1
    | joining spelled' => simp [spelled'] at spelled
  | equality spelled => cases typed' with
    | order | equality => rfl
    | arithmetic spelled' => exact absurd spelled (apart _ spelled').2
    | joining spelled' => simp [spelled'] at spelled
  | joining spelled _ _ ih => cases typed' with
    | joining => rfl
    | arithmetic _ left => cases ih left
    | order spelled' | equality spelled' => simp [spelled] at spelled'
  | choice _ _ _ _ ih => cases typed' with
    | choice _ first => exact ih first
  | expressing _ ih => cases typed' with
    | expressing typed => exact ih typed
  | block _ ih => cases typed' with
    | block typed => exact ih typed

end Tree

/-! ### Typed stores -/

namespace Store

/-- Every name bound on the root has a value of its type. -/
structure Typed (types : String → Scalar) (store : Store) : Prop where
  rooted : ∃ scope, store.scopes[root]? = some scope
  bindings : ∀ pair ∈ store.bindings root, pair.2.IsOf (types pair.1)

/-- Some names are bound on the root. -/
def Binds (store : Store) (names : List String) : Prop :=
  ∀ name ∈ names, (store.lookup? root name).isSome

variable {types : String → Scalar} {store : Store} {names : List String}

theorem Binds.tail {name : String} (binds : store.Binds (name :: names)) : store.Binds names :=
  fun other member => binds other (List.mem_cons_of_mem _ member)

/-- The scope of the root after a name has been bound there. -/
theorem scopes_bind_root (store : Store) (name : String) (value : Value) :
    (store.bind root name value).scopes[root]? =
      (store.scopes[root]?).map fun scope => scope.bind name value := by
  simp [Store.bind, Array.getElem?_modify]

/-- A name that is bound has a value of its type. -/
theorem Typed.isOf (typed : store.Typed types) {name : String} {value : Value}
    (found : store.lookup? root name = some value) : value.IsOf (types name) := by
  obtain ⟨scope, here⟩ := typed.rooted
  rw [lookup?_root, here] at found
  obtain ⟨before, after, split, -⟩ := List.lookup_eq_some_iff.mp found
  refine typed.bindings (name, value) ?_
  simp [Store.bindings, here, split]

/-- A value of its type may be bound to a name. -/
theorem Typed.bind (typed : store.Typed types) {name : String} {value : Value}
    (isOf : value.IsOf (types name)) : (store.bind root name value).Typed types := by
  obtain ⟨scope, here⟩ := typed.rooted
  have there := store.scopes_bind_root name value
  rw [here] at there
  refine ⟨⟨_, there⟩, fun pair member => ?_⟩
  have among : pair ∈ Scope.bindAmong name value scope.bindings := by
    simpa [Store.bindings, there, Scope.bind] using member
  rcases Scope.mem_bindAmong among with rfl | before
  · exact isOf
  · exact typed.bindings pair (by simpa [Store.bindings, here] using before)

/-- A name that is bound is bound from then on, and so are those that were. -/
theorem Typed.binds (typed : store.Typed types) (binds : store.Binds names) (name : String)
    (value : Value) : (store.bind root name value).Binds (name :: names) := by
  obtain ⟨scope, here⟩ := typed.rooted
  intro other member
  rw [lookup?_root, scopes_bind_root, here]
  show ((scope.bind name value).find? other).isSome
  rw [Scope.find?_bind]
  split
  · rfl
  next distinct =>
    have bound := binds other ((List.mem_cons.mp member).resolve_left distinct)
    rwa [lookup?_root, here] at bound

end Store

/-! ### Operators on values of the right types -/

/-- Stores stay typed, what is bound stays bound, and no fault arises but by division by zero or by
an exhausted limit. -/
def typing (types : String → Scalar) : Terms where
  good := Store.Typed types
  moves store after := ∀ names, store.Binds names → after.Binds names
  faults := Fault.ByDesign
  refl _ _ binds := binds
  trans first second names binds := second names (first names binds)

namespace typing

/-- From a store, two evaluations agree, keep to the terms, and yield a value of a type. -/
abbrev Agree (types : String → Scalar) (scalar : Scalar) (store : Store)
    (first second : Eval Value) : Prop :=
  (typing types).Agree (fun _ value => value.IsOf scalar) store first second

variable {types : String → Scalar} {one other scalar : Scalar} {store : Store} {sign : String}
  {left right : Value}

theorem boolean (typed : store.Typed types) (truth : Bool) :
    Agree types .boolean store (pure (.boolean truth)) (pure (.boolean truth)) :=
  .pure typed rfl

theorem number (typed : store.Typed types) (value : Int) :
    Agree types .integer store (pure (.integer value)) (pure (.integer value)) :=
  .pure typed rfl

/-- A string has an identity of its own, which leaves everything bound as it is. -/
theorem text (typed : store.Typed types) (chars : String) :
    Agree types .string store (Eval.identified fun identity => .string identity chars)
      (Eval.identified fun identity => .string identity chars) :=
  .bind (.modifyGet ⟨typed.rooted, typed.bindings⟩ fun _ binds => binds)
    fun _ _ good _ _ => .pure good rfl

/-- A name that is bound has a value of its type. -/
theorem identifier (typed : store.Typed types) {name : String} {value : Value}
    (found : store.lookup? Store.root name = some value) :
    Agree types (types name) store (Eval.identifier Store.root name)
      (Eval.identifier Store.root name) := by
  refine .bind (.get typed) ?_
  rintro after _ good moves ⟨rfl, rfl⟩
  rw [found]
  exact .pure typed (typed.isOf found)

theorem applyUnary_minus (typed : store.Typed types) (isOf : right.IsOf .integer) :
    Agree types .integer store (Eval.applyUnary "-" right) (Eval.applyUnary "-" right) := by
  obtain ⟨value, rfl⟩ := isOf.exists_integer
  exact number typed _

theorem applyUnary_bang (typed : store.Typed types) (right : Value) :
    Agree types .boolean store (Eval.applyUnary "!" right) (Eval.applyUnary "!" right) :=
  boolean typed _

/-- Arithmetic on integers yields an integer, or the divisor is zero. -/
theorem applyBinary_arithmetic (typed : store.Typed types) (spelled : sign ∈ ["+", "-", "*", "/"])
    (isOf : left.IsOf .integer) (isOf' : right.IsOf .integer) :
    Agree types .integer store (Eval.applyBinary sign left right)
      (Eval.applyBinary sign left right) := by
  obtain ⟨first, rfl⟩ := isOf.exists_integer
  obtain ⟨second, rfl⟩ := isOf'.exists_integer
  simp only [List.mem_cons, List.not_mem_nil, or_false] at spelled
  rcases spelled with rfl | rfl | rfl | rfl
  · exact number typed _
  · exact number typed _
  · exact number typed _
  · have divided : Eval.applyBinary "/" (.integer first) (.integer second) =
      if second = 0 then throw .divisionByZero
      else return .integer (Number.wrap (Number.quotient first second)) := rfl
    rw [divided]
    split
    · have byDesign : Fault.divisionByZero.ByDesign := Or.inl rfl
      exact .throw typed byDesign
    · exact number typed _

theorem applyBinary_order (typed : store.Typed types) (spelled : sign ∈ ["<", ">"])
    (isOf : left.IsOf .integer) (isOf' : right.IsOf .integer) :
    Agree types .boolean store (Eval.applyBinary sign left right)
      (Eval.applyBinary sign left right) := by
  obtain ⟨first, rfl⟩ := isOf.exists_integer
  obtain ⟨second, rfl⟩ := isOf'.exists_integer
  simp only [List.mem_cons, List.not_mem_nil, or_false] at spelled
  rcases spelled with rfl | rfl
  · exact boolean typed _
  · exact boolean typed _

theorem applyBinary_joining (typed : store.Typed types) (isOf : left.IsOf .string)
    (isOf' : right.IsOf .string) :
    Agree types .string store (Eval.applyBinary "+" left right)
      (Eval.applyBinary "+" left right) := by
  obtain ⟨identity, first, rfl⟩ := isOf.exists_string
  obtain ⟨identity', second, rfl⟩ := isOf'.exists_string
  exact text typed _

/-- Equality tells values of any types apart. -/
theorem applyBinary_equality (typed : store.Typed types) (spelled : sign ∈ ["==", "!="])
    (isOf : left.IsOf one) (isOf' : right.IsOf other) :
    Agree types .boolean store (Eval.applyBinary sign left right)
      (Eval.applyBinary sign left right) := by
  simp only [List.mem_cons, List.not_mem_nil, or_false] at spelled
  cases left with
  | integer first =>
    cases right with
    | integer second => rcases spelled with rfl | rfl <;> exact boolean typed _
    | nothing => cases isOf'
    | _ => rcases spelled with rfl | rfl <;> exact boolean typed _
  | nothing => cases isOf
  | _ =>
    cases right with
    | nothing => cases isOf'
    | _ => rcases spelled with rfl | rfl <;> exact boolean typed _

end typing

/-! ### One level of evaluation -/

/-- Two ways to evaluate trees on the root that agree on typed ones. -/
def Evaluates (types : String → Scalar) (evaluate evaluate' : Tree → ScopeId → Eval Value) : Prop :=
  ∀ ⦃store : Store⦄ ⦃bound : List String⦄ ⦃role : Role⦄ ⦃tree : Tree⦄ ⦃scalar : Scalar⦄,
    store.Typed types → store.Binds bound → tree.Typed types bound role scalar →
      typing.Agree types scalar store (evaluate tree Store.root) (evaluate' tree Store.root)

namespace Evaluates

variable {types : String → Scalar} {evaluate evaluate' : Tree → ScopeId → Eval Value}
  {store : Store} {bound : List String} {role : Role} {tree : Tree} {one scalar : Scalar}
  (evaluates : Evaluates types evaluate evaluate') (good : store.Typed types)
  (binds : store.Binds bound)

include evaluates good binds

/-- A typed part has a value of its type, which is used: it is no signal. -/
theorem used (typed : tree.Typed types bound role one) {ends : Store → Value → Prop}
    {use use' : Value → Eval Value}
    (follows : ∀ after value, after.Typed types → after.Binds bound → value.IsOf one →
      (typing types).Agree ends after (use value) (use' value)) :
    (typing types).Agree ends store
      (do let value ← evaluate tree Store.root; Eval.unlessSignal value (use value))
      (do let value ← evaluate' tree Store.root; Eval.unlessSignal value (use' value)) := by
  refine .bind (evaluates good binds typed) fun after value good moves isOf => ?_
  simpa [Eval.unlessSignal, isOf.calm.1] using follows after value good (moves bound binds) isOf

/-- The operand of a unary operator is evaluated. -/
theorem unary {right : Tree} {operator : Token} (typed : right.Typed types bound .expression one)
    (follows : ∀ after value, after.Typed types → value.IsOf one →
      typing.Agree types scalar after (Eval.applyUnary operator.text value)
        (Eval.applyUnary operator.text value)) :
    typing.Agree types scalar store (Eval.unary evaluate Store.root [.leaf operator, right])
      (Eval.unary evaluate' Store.root [.leaf operator, right]) :=
  evaluates.used good binds typed fun after value good _ isOf => follows after value good isOf

/-- Both operands of a binary operator are evaluated. -/
theorem binary {left right : Tree} {operator : Token} {first second : Scalar}
    (typed : left.Typed types bound .expression first)
    (typed' : right.Typed types bound .expression second)
    (follows : ∀ after value value', after.Typed types → value.IsOf first → value'.IsOf second →
      typing.Agree types scalar after (Eval.applyBinary operator.text value value')
        (Eval.applyBinary operator.text value value')) :
    typing.Agree types scalar store
      (Eval.binary evaluate Store.root [left, .leaf operator, right])
      (Eval.binary evaluate' Store.root [left, .leaf operator, right]) := by
  refine evaluates.used good binds typed fun middle value good binds isOf => ?_
  refine evaluates.used good binds typed' fun after value' good _ isOf' => ?_
  exact follows after value value' good isOf isOf'

/-- The one statement of a block. -/
theorem block (typed : tree.Typed types bound .statement scalar) (last : Value) :
    typing.Agree types scalar store (Eval.statements evaluate Store.root last [tree])
      (Eval.statements evaluate' Store.root last [tree]) :=
  evaluates.used good binds typed fun _ _ good _ isOf => .pure good isOf

/-- **One level of evaluation** yields values of the right types, if the evaluation of the parts
does. -/
theorem step (typed : tree.Typed types bound role scalar)
    (apply apply' : Value → List Value → Eval Value) :
    typing.Agree types scalar store (Eval.step evaluate apply Store.root tree)
      (Eval.step evaluate' apply' Store.root tree) := by
  cases typed with
  | @integer literal number read =>
    have known : ∀ evaluate apply, Eval.step evaluate apply Store.root
        (.node .integer [.leaf literal]) = pure (.integer number) := by
      intro evaluate apply
      have text : ∀ next : String → Eval Value,
          ((Tree.node .integer [.leaf literal]).tokenText >>= fun text => next text :
            Eval Value) = next literal.text := fun _ => rfl
      simp only [Eval.step, text, read]
    rw [known, known]
    exact typing.number good number
  | boolean literal => exact typing.boolean good _
  | string literal => exact typing.text good _
  | @identifier name member =>
    obtain ⟨value, found⟩ := Option.isSome_iff_exists.mp (binds name.text member)
    exact typing.identifier good found
  | arithmetic spelled left right =>
    exact evaluates.binary good binds left right fun _ _ _ good isOf isOf' =>
      typing.applyBinary_arithmetic good spelled isOf isOf'
  | negation spelled right =>
    refine evaluates.unary good binds right fun _ _ good isOf => ?_
    exact spelled ▸ typing.applyUnary_minus good isOf
  | order spelled left right =>
    exact evaluates.binary good binds left right fun _ _ _ good isOf isOf' =>
      typing.applyBinary_order good spelled isOf isOf'
  | equality spelled left right =>
    exact evaluates.binary good binds left right fun _ _ _ good isOf isOf' =>
      typing.applyBinary_equality good spelled isOf isOf'
  | denial spelled right =>
    refine evaluates.unary good binds right fun _ _ good _ => ?_
    exact spelled ▸ typing.applyUnary_bang good _
  | joining spelled left right =>
    refine evaluates.binary good binds left right fun _ _ _ good isOf isOf' => ?_
    exact spelled ▸ typing.applyBinary_joining good isOf isOf'
  | choice condition consequence alternative =>
    refine evaluates.used good binds condition fun after value good binds _ => ?_
    have branch : ∀ {part : Tree}, part.Typed types bound .block scalar →
        typing.Agree types scalar after
          (do return (← evaluate part Store.root).orNull)
          (do return (← evaluate' part Store.root).orNull) := by
      intro part typed
      refine .bind (evaluates good binds typed) fun final result good _ isOf => .pure good ?_
      rwa [isOf.calm.2]
    split
    · exact branch consequence
    · cases alternative with
      | block typed => exact branch (.block typed)
  | expressing value => exact evaluates good binds value
  | block statement => exact evaluates.block good binds statement .nothing

end Evaluates

/-! ### Whole evaluations -/

/-- The root is the only scope, its names have values of their types, and what a tree yields is no
error and of the type of the tree. -/
def Moment.Typed (types : String → Scalar) : Moment → Store → Prop
  | .entered _ scope, store => scope = Store.root ∧ store.Typed types
  | .yielded tree value, store => store.Typed types ∧ value.isError = false ∧
    ∀ bound role scalar, tree.Typed types bound role scalar → value.IsOf scalar
  | .applied _ _, _ => False

section Typed

variable (types : String → Scalar) (alarm : Fault)

/-- **Typed trees are evaluated as their types say.** -/
theorem evaluates_typed (limit : Nat) :
    Evaluates types (evaluateWatched (Moment.Typed types) alarm limit) (evaluate limit) := by
  induction limit with
  | zero => exact fun _ _ _ _ _ good _ _ => .throw good (Or.inr rfl)
  | succ limit ih =>
    intro store bound role tree scalar good binds typed
    refine .level _ alarm ⟨rfl, good⟩ (fun after value good isOf => ?_)
      (ih.step good binds typed _ _)
    refine ⟨good, isOf.isError, fun bound' role' other typed' => ?_⟩
    rwa [typed.unique typed']

/-- A binding of a typed value leaves its name bound. -/
theorem binding_typed (limit : Nat) {store : Store} {bound : List String} {name : Token}
    {value : Tree} (good : store.Typed types) (binds : store.Binds bound)
    (typed : value.Typed types bound .expression (types name.text)) :
    (typing types).Agree (fun after value => value = .nothing ∧ after.Binds (name.text :: bound))
      store
      (evaluateWatched (Moment.Typed types) alarm limit (.node .letStatement [.leaf name, value])
        Store.root)
      (evaluate limit (.node .letStatement [.leaf name, value]) Store.root) := by
  cases limit with
  | zero => exact .throw good (Or.inr rfl)
  | succ limit =>
    refine .level _ alarm ⟨rfl, good⟩ (fun after result good ended => ?_) ?_
    · rw [ended.1]
      refine ⟨good, rfl, fun bound' role' other typed' => ?_⟩
      cases typed'
    refine .bind ((evaluates_typed types alarm limit) good binds typed)
      fun after result good moves isOf => ?_
    have bindsAfter := good.binds (moves bound binds) name.text result
    rw [Eval.unlessSignal, isOf.calm.1]
    refine .bind (.lift good fun fault failed => by cases failed) ?_
    rintro _ _ good - ⟨rfl, ⟨⟩⟩
    refine .bind (.modify (good.bind isOf) fun names binds => (good.binds binds _ _).tail) ?_
    rintro _ _ good - rfl
    exact .pure good ⟨rfl, bindsAfter⟩

/-- What statements end with: no signal, and a value of the type of the last of them, if it has
one. -/
def Value.Ends (types : String → Scalar) (latest? : Option Tree) (value : Value) : Prop :=
  value.isSignal = false ∧ ∀ statement ∈ latest?, ∀ bound scalar,
    statement.Typed types bound .statement scalar → value.IsOf scalar

/-- After a first statement, the last one is that or one of the rest. -/
theorem Value.Ends.cons {types : String → Scalar} {statement : Tree} {rest : List Tree}
    {value : Value} (ends : value.Ends types (rest.getLast?.or (some statement)))
    (latest? : Option Tree) :
    value.Ends types ((statement :: rest).getLast?.or latest?) := by
  rw [List.getLast?_cons]
  cases last : rest.getLast? <;> simpa [last] using ends

/-- **Statements in turn**: each finds the names of those before it bound. -/
theorem statements_typed (limit : Nat) {bound : List String} {statements : List Tree}
    (ordered : Tree.Ordered types bound statements) {store : Store} (good : store.Typed types)
    (binds : store.Binds bound) {latest? : Option Tree} {last : Value}
    (ends : last.Ends types latest?) :
    (typing types).Agree (fun _ value => value.Ends types (statements.getLast?.or latest?)) store
      (Eval.statements (evaluateWatched (Moment.Typed types) alarm limit) Store.root last
        statements)
      (Eval.statements (evaluate limit) Store.root last statements) := by
  induction ordered generalizing store latest? last with
  | nil => exact .pure good ends
  | @binding bound name value rest typed _ ih =>
    refine .bind (binding_typed types alarm limit good binds typed) ?_
    rintro after _ good - ⟨rfl, binds⟩
    have ended : Value.nothing.Ends types (some (.node .letStatement [.leaf name, value])) := by
      refine ⟨rfl, ?_⟩
      rintro _ ⟨⟩ bound scalar typed
      cases typed
    exact (ih good binds ended).weaken fun _ _ _ _ ends => ends.cons _
  | @expressing bound statement scalar rest typed _ ih =>
    refine Evaluates.used (evaluates_typed types alarm limit) good binds typed ?_
    intro after value good binds isOf
    have ended : value.Ends types (some statement) := by
      refine ⟨isOf.calm.1, ?_⟩
      rintro _ ⟨⟩ bound other typed'
      rwa [typed.unique typed']
    exact (ih good binds ended).weaken fun _ _ _ _ ends => ends.cons _

/-- A typed program, from an initial store. -/
theorem program_typed (limit : Nat) {statements : List Tree}
    (ordered : Tree.Ordered types [] statements) :
    (typing types).Agree (fun _ value => value.Ends types statements.getLast?) .initial
      (evaluateWatched (Moment.Typed types) alarm limit (.node .program statements) Store.root)
      (evaluate limit (.node .program statements) Store.root) := by
  have good : Store.initial.Typed types := ⟨⟨_, rfl⟩, fun pair member => by cases member⟩
  have binds : Store.initial.Binds [] := fun name member => by cases member
  have started : Value.nothing.Ends types none := ⟨rfl, fun statement member => by cases member⟩
  cases limit with
  | zero => exact .throw good (Or.inr rfl)
  | succ limit =>
    refine .level _ alarm ⟨rfl, good⟩ (fun after value good ends => ⟨good, ?_, ?_⟩) ?_
    · cases value with
      | error => cases ends.1
      | _ => rfl
    · intro bound role scalar typed
      cases typed
    refine .bind (statements_typed types alarm limit ordered good binds started) ?_
    intro after value good _ ends
    refine .pure good ?_
    have kept : value.operand = value := by
      cases value with
      | returned => cases ends.1
      | _ => rfl
    simpa [kept] using ends

end Typed

/-- **Typed programs are sound.** A program that binds names to values of their types, and whose
expressions have types, never yields an error, on the way or at its end: at every moment of its
evaluation names are bound to values of their types on the root, which is the only scope, and the
trees yield values of their types. It ends with a value of the type of its last statement, if that
has one, or by a division by zero or beyond the limit, and then too its names have their types. -/
theorem typed_sound (types : String → Scalar) {statements : List Tree}
    (ordered : Tree.Ordered types [] statements) (limit : Nat) :
    AlwaysEvaluating (Moment.Typed types) limit (.node .program statements) Store.root .initial ∧
    (∀ fault after, (evaluate limit (.node .program statements) Store.root).runFrom .initial =
      (.error fault, after) → fault.ByDesign ∧ after.Typed types) ∧
    ∀ value after, (evaluate limit (.node .program statements) Store.root).runFrom .initial =
      (.ok value, after) → value.isError = false ∧ after.Typed types ∧
        ∀ statement ∈ statements.getLast?, ∀ bound scalar,
          statement.Typed types bound .statement scalar → value.IsOf scalar := by
  refine ⟨fun alarm => (program_typed types alarm limit ordered).same, ?_, ?_⟩
  · intro fault after ran
    have agree := program_typed types .nestingTooDeep limit ordered
    have good := agree.good
    rw [ran] at good
    exact ⟨agree.faults fault (by rw [ran]), good⟩
  · intro value after ran
    have agree := program_typed types .nestingTooDeep limit ordered
    have good := agree.good
    have ends := agree.yields value (by rw [ran])
    rw [ran] at good
    refine ⟨?_, good, ends.2⟩
    cases value with
    | error => cases ends.1
    | _ => rfl

/-- A name that a builtin has may be bound to a boolean, and a condition may choose by it. -/
theorem typed_sound_choice :
    let types := fun name => if name = "len" then Scalar.boolean else .integer
    let statements :=
      [Build.binding "x" (Build.binary (Build.integer 6) "/" (Build.integer 2)),
        Build.binding "len" (Build.binary (Build.identifier "x") "<" (Build.integer 4)),
        Build.statement (Build.conditional (Build.identifier "len")
          (Build.block [Build.statement (Build.binary (Build.string "a") "+" (Build.string "b"))])
          (some (Build.block [Build.statement (Build.string "c")])))]
    Tree.Ordered types [] statements ∧
      AlwaysEvaluating (Moment.Typed types) 9 (Build.program statements) Store.root .initial ∧
      ∃ value after, (evaluate 9 (Build.program statements) Store.root).runFrom .initial =
        (.ok value, after) ∧ value.isError = false ∧ value.IsOf .string := by
  intro types statements
  have six : Tree.Typed types [] .expression (Build.integer 6) .integer := .integer rfl
  have two : Tree.Typed types [] .expression (Build.integer 2) .integer := .integer rfl
  have four : Tree.Typed types ["x"] .expression (Build.integer 4) .integer := .integer rfl
  have named : Tree.Typed types ["x"] .expression (Build.identifier "x") .integer :=
    .identifier (by decide)
  have flag : Tree.Typed types ["len", "x"] .expression (Build.identifier "len") .boolean :=
    .identifier (by decide)
  have joined : Tree.Typed types ["len", "x"] .expression
      (Build.binary (Build.string "a") "+" (Build.string "b")) .string :=
    .joining rfl (.string _) (.string _)
  have other : Tree.Typed types ["len", "x"] .block
      (Build.block [Build.statement (Build.string "c")]) .string :=
    .block (.expressing (.string _))
  have last := Tree.Typed.expressing (.choice flag (.block (.expressing joined)) other)
  have ordered : Tree.Ordered types [] statements :=
    .binding (.arithmetic (by decide) six two)
      (.binding (.order (by decide) named four) (.expressing last .nil))
  obtain ⟨always, -, sound⟩ := typed_sound types ordered 9
  obtain ⟨value, after, ran⟩ : ∃ value after,
      (evaluate 9 (Build.program statements) Store.root).runFrom .initial = (.ok value, after) :=
    ⟨_, _, rfl⟩
  obtain ⟨calm, -, ends⟩ := sound value after ran
  exact ⟨ordered, always, value, after, ran, calm, ends _ rfl _ _ last⟩

end Scriptlet
