/-
**Signals pass through what is around them.**

An error, or an operand on its way to the end of a function, ends everything that is being evaluated
around it: each part of a tree passes it on in its own rule, and nothing comes after it.

* `Layer`: a tree with one part open, which is evaluated on the same scope; `Layer.before` are the
  parts that are evaluated before the open one, and `Layer.Leads` says which of their values lead
  to it.
* `fill`: a tree with layers around it.
* `Eval.Calmly`: trees are evaluated in turn, and none yields a signal.
* `Reaches`: the evaluation of a tree within layers comes to that tree.

Main statement: `signals_pass`. A signal of the tree within is what the whole yields, with the store
as it is right after the tree; in between, the layers are entered and yield, and there is no other
moment.
-/
import Scriptlet.Proofs.Evaluation.Submissions
import Scriptlet.Proofs.Evaluation.Watch
import Scriptlet.Proofs.Value.Collected

namespace Scriptlet

/-- A tree with one part open. The body of a function is not a part that is open: it is evaluated in
a call, on a scope of its own. -/
inductive Layer where
  | expressing (others : List Tree)
  | binding (name : Tree)
  | returning (others : List Tree)
  | operand (operator : Tree)
  | left (operator second : Tree)
  | right (first operator : Tree)
  | container (second : Tree)
  | index (first : Tree)
  | condition (second : Tree) (rest : List Tree)
  | consequence (first : Tree) (rest : List Tree)
  | alternative (first second : Tree) (others : List Tree)
  | callee (second : Tree)
  | argument (first : Tree) (before after : List Tree)
  | element (before after : List Tree)
  | key (before : List (Tree × Tree)) (second : Tree) (after : List Tree)
  | value (before : List (Tree × Tree)) (first : Tree) (after : List Tree)
  | statement (before after : List Tree)

namespace Layer

/-- The tree of a pair in a hash. -/
def pair (parts : Tree × Tree) : Tree :=
  .node .pair [parts.1, parts.2]

/-- The keys and values of pairs, in turn. -/
def both (pairs : List (Tree × Tree)) : List Tree :=
  pairs.flatMap fun parts => [parts.1, parts.2]

/-- The tree with its open part. -/
def fill (part : Tree) : Layer → Tree
  | expressing others => .node .expressionStatement (part :: others)
  | binding name => .node .letStatement [name, part]
  | returning others => .node .returnStatement (part :: others)
  | operand operator => .node .unary [operator, part]
  | left operator second => .node .binary [part, operator, second]
  | right first operator => .node .binary [first, operator, part]
  | container second => .node .index [part, second]
  | index first => .node .index [first, part]
  | condition second rest => .node .conditional (part :: second :: rest)
  | consequence first rest => .node .conditional (first :: part :: rest)
  | alternative first second others => .node .conditional (first :: second :: part :: others)
  | callee second => .node .call [part, second]
  | argument first before after => .node .call [first, .node .arguments (before ++ part :: after)]
  | element before after => .node .array (before ++ part :: after)
  | key before second after => .node .hash (before.map pair ++ pair (part, second) :: after)
  | value before first after => .node .hash (before.map pair ++ pair (first, part) :: after)
  | statement before after => .node .block (before ++ part :: after)

/-- The parts that are evaluated before the open one. -/
def before : Layer → List Tree
  | expressing _ | binding _ | returning _ | operand _ | left .. | container _ | condition ..
  | callee _ => []
  | right first _ | index first | consequence first _ | alternative first .. => [first]
  | argument first before _ => first :: before
  | element before _ | statement before _ => before
  | key before .. => both before
  | value before first _ => both before ++ [first]

/-- Values of keys and values in turn, of which those of keys are keys. -/
def Keyed : List Value → Prop
  | [] => True
  | [first] => first.key?.isSome = true
  | first :: _ :: rest => first.key?.isSome = true ∧ Keyed rest

/-- The values of the parts before lead to the open part: a condition chooses it, and the keys before
it are keys. -/
def Leads : Layer → List Value → Prop
  | consequence .., values => ∀ value ∈ values, value.isTruthy = true
  | alternative .., values => ∀ value ∈ values, value.isTruthy = false
  | key .., values | value .., values => Keyed values
  | _, _ => True

end Layer

/-- A tree with layers around it, the outermost first. -/
def fill (context : List Layer) (hole : Tree) : Tree :=
  context.foldr (fun layer inner => layer.fill inner) hole

/-- Trees are evaluated in turn, and none yields a signal. -/
inductive Eval.Calmly (evaluate : Tree → ScopeId → Eval Value) (scope : ScopeId) :
    List Tree → Store → List Value → Store → Prop
  | nil {store : Store} : Calmly evaluate scope [] store [] store
  | cons {tree : Tree} {rest : List Tree} {value : Value} {values : List Value}
      {store middle after : Store} : (evaluate tree scope).runFrom store = (.ok value, middle) →
      value.isSignal = false → Calmly evaluate scope rest middle values after →
      Calmly evaluate scope (tree :: rest) store (value :: values) after

/-- The evaluation of a tree within layers comes to that tree: every layer is entered as it may be,
the parts before its open part are evaluated calmly, one deeper, and lead to the open part. -/
inductive Reaches (evaluate : Nat → Tree → ScopeId → Eval Value) (enters : Tree → Store → Prop)
    (limit : Nat) (scope : ScopeId) (hole : Tree) : List Layer → Store → Store → Prop
  | here {store : Store} : Reaches evaluate enters limit scope hole [] store store
  | within {layer : Layer} {context : List Layer} {values : List Value}
      {store middle reached : Store} : enters (fill (layer :: context) hole) store →
      Eval.Calmly (evaluate (limit + context.length)) scope layer.before store values middle →
      layer.Leads values → Reaches evaluate enters limit scope hole context middle reached →
      Reaches evaluate enters limit scope hole (layer :: context) store reached

/-! ### One layer -/

namespace Eval

section Parts

variable {evaluate : Tree → ScopeId → Eval Value} {apply : Value → List Value → Eval Value}
  {scope : ScopeId} {part : Tree} {store middle after : Store} {signal : Value}

variable (ended : (evaluate part scope).runFrom middle = (.ok signal, after))
  (isSignal : signal.isSignal = true)

include ended isSignal

/-- A signal is a value that is there, and stays as it is. -/
theorem runFrom_orNull_signal :
    (do return (← evaluate part scope).orNull).runFrom middle = (.ok signal, after) := by
  rw [runFrom_return, ended]
  cases signal <;> first | rfl | cases isSignal

/-- A signal after calm values is all that is left of them. -/
theorem runFrom_values_signal {before : List Tree} {values : List Value}
    (calmly : Calmly evaluate scope before store values middle) (rest : List Tree) :
    (Eval.values evaluate scope (before ++ part :: rest)).runFrom store =
      (.ok (.inl signal), after) := by
  induction calmly with
  | nil =>
    rw [List.nil_append, Eval.values, runFrom_bind_of_ok ended]
    simp [isSignal]
  | cons ran calm _ ih =>
    rw [List.cons_append, Eval.values, runFrom_bind_of_ok ran]
    simp only [calm, Bool.false_eq_true, if_false]
    rw [runFrom_bind_of_ok (ih ended)]
    rfl

/-- Then the values are not used. -/
theorem runFrom_elements_signal {before : List Tree} {values : List Value}
    (calmly : Calmly evaluate scope before store values middle) (rest : List Tree)
    (use : List Value → Eval Value) :
    (do match ← Eval.values evaluate scope (before ++ part :: rest) with
      | .inl signal => return signal
      | .inr elements => use elements).runFrom store = (.ok signal, after) := by
  rw [runFrom_bind_of_ok (runFrom_values_signal ended isSignal calmly rest)]
  rfl

/-- A signal ends the statements before which there were calm ones. -/
theorem runFrom_statements_calmly {before : List Tree} {values : List Value}
    (calmly : Calmly evaluate scope before store values middle) (last : Value) (rest : List Tree) :
    (statements evaluate scope last (before ++ part :: rest)).runFrom store =
      (.ok signal, after) := by
  induction calmly generalizing last with
  | nil => exact runFrom_statements_signal ended isSignal last rest
  | cons ran calm _ ih => exact (runFrom_statements_calm ran calm last _).trans (ih ended _)

end Parts

variable {evaluate : Tree → ScopeId → Eval Value} {scope : ScopeId}

/-- Trees that are evaluated calmly yield their values. -/
theorem runFrom_values_calmly {trees : List Tree} {values : List Value} {store after : Store}
    (calmly : Calmly evaluate scope trees store values after) :
    (Eval.values evaluate scope trees).runFrom store = (.ok (.inr values), after) := by
  induction calmly with
  | nil => rfl
  | cons ran calm _ ih =>
    rw [Eval.values, runFrom_bind_of_ok ran]
    simp only [calm, Bool.false_eq_true, if_false]
    rw [runFrom_bind_of_ok ih]
    rfl

/-- Pairs that are evaluated calmly, with keys that are keys, are added in turn. -/
theorem runFrom_pairs_calmly {before : List (Tree × Tree)} {more : List Tree} {values : List Value}
    {store reached : Store}
    (calmly : Calmly evaluate scope (Layer.both before ++ more) store values reached)
    (keyed : Layer.Keyed values) :
    ∃ middle given others, Value.paired values = given ++ Value.paired others ∧
      Calmly evaluate scope more middle others reached ∧ Layer.Keyed others ∧
      ∀ done rest, (pairs evaluate scope done (before.map Layer.pair ++ rest)).runFrom store =
        (pairs evaluate scope (Value.putPairs done given) rest).runFrom middle := by
  induction before generalizing store values with
  | nil => exact ⟨store, [], values, rfl, calmly, keyed, fun _ _ => rfl⟩
  | cons parts before ih =>
    obtain _ | ⟨ran, calm, _ | ⟨ran', calm', calmly⟩⟩ := calmly
    obtain ⟨isKey, keyed⟩ := keyed
    obtain ⟨_, found⟩ := Option.isSome_iff_exists.mp isKey
    obtain ⟨middle, given, others, split, calmly, keyed, same⟩ := ih calmly keyed
    refine ⟨middle, _ :: given, others, congrArg _ split, calmly, keyed, fun done rest => ?_⟩
    refine (runFrom_used_calm ran _ calm).trans ?_
    rw [found]
    exact (runFrom_used_calm ran' _ calm').trans (same _ rest)

/-- **A signal passes through a layer**, whatever evaluates the parts. -/
theorem runFrom_step_signal (apply : Value → List Value → Eval Value) (layer : Layer) {part : Tree}
    {values : List Value} {store middle after : Store} {signal : Value}
    (calmly : Calmly evaluate scope layer.before store values middle) (leads : layer.Leads values)
    (ended : (evaluate part scope).runFrom middle = (.ok signal, after))
    (isSignal : signal.isSignal = true) (there : part ≠ .absent) :
    (step evaluate apply scope (layer.fill part)).runFrom store = (.ok signal, after) := by
  cases layer with
  | expressing others =>
    cases calmly
    exact ended
  | binding | returning | operand | left | container | condition | callee =>
    cases calmly
    exact runFrom_used_signal ended _ isSignal
  | right | index =>
    obtain _ | ⟨ran, calm, ⟨⟩⟩ := calmly
    exact (runFrom_used_calm ran _ calm).trans (runFrom_used_signal ended _ isSignal)
  | consequence =>
    obtain _ | ⟨ran, calm, ⟨⟩⟩ := calmly
    refine (runFrom_used_calm ran _ calm).trans ?_
    rw [if_pos (leads _ List.mem_cons_self)]
    exact runFrom_orNull_signal ended isSignal
  | alternative =>
    obtain _ | ⟨ran, calm, ⟨⟩⟩ := calmly
    refine (runFrom_used_calm ran _ calm).trans ?_
    rw [if_neg (by rw [leads _ List.mem_cons_self]; exact Bool.false_ne_true)]
    cases part with
    | absent => exact absurd rfl there
    | node | leaf => exact runFrom_orNull_signal ended isSignal
  | argument callee before rest =>
    cases calmly with
    | cons ran calm calmly =>
      exact (runFrom_used_calm ran _ calm).trans
        (runFrom_elements_signal ended isSignal calmly rest _)
  | element before rest => exact runFrom_elements_signal ended isSignal calmly rest _
  | key before =>
    rw [Layer.before, ← List.append_nil (Layer.both before)] at calmly
    obtain ⟨middle, given, others, -, calmly, -, same⟩ := runFrom_pairs_calmly calmly leads
    cases calmly
    exact (same [] _).trans (runFrom_used_signal ended _ isSignal)
  | value before =>
    obtain ⟨middle, given, others, -, calmly, isKey, same⟩ := runFrom_pairs_calmly calmly leads
    obtain _ | ⟨ran, calm, ⟨⟩⟩ := calmly
    obtain ⟨key, found⟩ := Option.isSome_iff_exists.mp isKey
    refine (same [] _).trans ((runFrom_used_calm ran _ calm).trans ?_)
    rw [found]
    exact runFrom_used_signal ended _ isSignal
  | statement before rest => exact runFrom_statements_calmly ended isSignal calmly .nothing rest

end Eval

/-! ### Layers within layers -/

section Watched

variable {permits : Moment → Store → Prop} {alarm : Fault} {limit : Nat} {scope : ScopeId}
  {hole : Tree} {store reached after : Store} {signal : Value}

/-- A level of evaluation whose moments are permitted. -/
theorem runFrom_evaluateWatched_of_permits {tree : Tree} {value : Value}
    (enters : permits (.entered tree scope) store)
    (stepped : (Eval.step (evaluateWatched permits alarm limit)
      (Eval.callWatched permits alarm (Value.inspectWithin limit)
        (evaluateWatched permits alarm limit)) scope tree).runFrom store = (.ok value, after))
    (yields : permits (.yielded tree value) after) :
    (evaluateWatched permits alarm (limit + 1) tree scope).runFrom store = (.ok value, after) := by
  rw [evaluateWatched, Eval.runFrom_bind_of_ok (Eval.runFrom_watch_of_permits enters),
    Eval.runFrom_bind_of_ok stepped, Eval.runFrom_bind_of_ok (Eval.runFrom_watch_of_permits yields)]
  rfl

/-- What yields a signal is a tree that is there. -/
theorem ne_absent_of_isSignal
    (ended : (evaluateWatched permits alarm limit hole scope).runFrom store = (.ok signal, after))
    (isSignal : signal.isSignal = true) : hole ≠ .absent := by
  rintro rfl
  cases limit with
  | zero => cases ended
  | succ limit =>
    rw [evaluateWatched] at ended
    obtain ⟨_, _, -, ended⟩ := Eval.exists_of_runFrom_bind ended
    obtain ⟨_, _, stepped, ended⟩ := Eval.exists_of_runFrom_bind ended
    obtain ⟨_, _, -, ended⟩ := Eval.exists_of_runFrom_bind ended
    cases ended
    cases stepped
    cases isSignal

/-- **A signal passes through all layers**, which are entered on the way to the tree within and yield
on the way back; nothing else is met. -/
theorem Reaches.evaluateWatched_signal {context : List Layer}
    (reaches : Reaches (evaluateWatched permits alarm)
      (fun tree now => permits (.entered tree scope) now) limit scope hole context store reached)
    (ended : (evaluateWatched permits alarm limit hole scope).runFrom reached = (.ok signal, after))
    (isSignal : signal.isSignal = true)
    (yields : ∀ inner ≠ [], inner <:+ context → permits (.yielded (fill inner hole) signal) after) :
    (evaluateWatched permits alarm (limit + context.length) (fill context hole) scope).runFrom store =
      (.ok signal, after) := by
  induction reaches with
  | here => exact ended
  | @within layer context _ _ _ _ enters calmly leads _ ih =>
    have inner := ih ended fun inner some_ suffix =>
      yields inner some_ (suffix.trans (List.suffix_cons layer context))
    have stepped := fun apply => Eval.runFrom_step_signal apply layer calmly leads inner isSignal
      (ne_absent_of_isSignal inner isSignal)
    exact runFrom_evaluateWatched_of_permits enters (stepped _)
      (yields (layer :: context) (List.cons_ne_nil layer context) (List.suffix_refl _))

end Watched

/-- **Signals pass through every context.** If a tree within any layers yields a signal at the store
at which its evaluation is reached, the whole yields that signal, and leaves the store that the tree
leaves. However the evaluation is watched, nothing is met but what is met in the parts before and in
the tree, and the layers entered before it and yielding the signal after it. -/
theorem signals_pass (limit : Nat) (scope : ScopeId) (context : List Layer) (hole : Tree)
    (store reached after : Store) (signal : Value) (isSignal : signal.isSignal = true) :
    (Reaches evaluate (fun _ _ => True) limit scope hole context store reached →
      (evaluate limit hole scope).runFrom reached = (.ok signal, after) →
      (evaluate (limit + context.length) (fill context hole) scope).runFrom store =
        (.ok signal, after)) ∧
    ∀ permits alarm,
      Reaches (evaluateWatched permits alarm) (fun tree now => permits (.entered tree scope) now)
        limit scope hole context store reached →
      (evaluateWatched permits alarm limit hole scope).runFrom reached = (.ok signal, after) →
      (∀ inner ≠ [], inner <:+ context → permits (.yielded (fill inner hole) signal) after) →
      (evaluateWatched permits alarm (limit + context.length) (fill context hole) scope).runFrom
        store = (.ok signal, after) := by
  refine ⟨fun reaches ended => ?_, fun permits alarm reaches ended yields =>
    reaches.evaluateWatched_signal ended isSignal yields⟩
  have same : evaluateWatched (fun _ _ => True) .valueMissing = evaluate :=
    funext (evaluateWatched_true .valueMissing)
  rw [← same] at reaches ended ⊢
  exact reaches.evaluateWatched_signal ended isSignal fun _ _ _ => trivial

/-- An unknown name in the statement `let a = [puts(1), {2: -(x + puts(3))}, puts(4)];`. -/
theorem signals_pass_pair :
    let token (kind : Kind) (text : String) : Tree := .leaf ⟨kind, text, .start, 0⟩
    let name (text : String) : Tree := .node .identifier [token .identifier text]
    let puts (digit : String) : Tree := .node .call [name "puts",
      .node .arguments [.node .integer [token .integer digit]]]
    let context : List Layer := [.binding (token .identifier "a"), .element [puts "1"] [puts "4"],
      .value [] (.node .integer [token .integer "2"]) [], .operand (token .minus "-"),
      .left (token .plus "+") (puts "3")]
    let reached : Store := ⟨#[⟨none, []⟩], 0, #["1"]⟩
    let signal : Value := .error 0 (.unknownName "x")
    Reaches evaluate (fun _ _ => True) 1 Store.root (name "x") context .initial reached ∧
      (evaluate 6 (fill context (name "x")) Store.root).runFrom .initial =
        (.ok signal, reached.identify.2) := by
  intro token name puts context reached signal
  have reaches : Reaches evaluate (fun _ _ => True) 1 Store.root (name "x") context .initial
      reached := by
    refine .within trivial .nil trivial (.within trivial (.cons rfl rfl .nil) trivial ?_)
    refine .within trivial (.cons rfl rfl .nil) rfl ?_
    exact .within trivial .nil trivial (.within trivial .nil trivial .here)
  exact ⟨reaches, (signals_pass 1 Store.root context (name "x") .initial reached _ signal
    rfl).1 reaches rfl⟩

end Scriptlet
