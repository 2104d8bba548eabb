/-
**Hashes from the keys and values written in them.**

* `Layer.hash`: the tree of a hash.

Main statements: `hash_evaluated`. A hash whose parts are evaluated calmly, and whose keys are keys,
collects their values; a key that is none ends it in an error, before the value beside it is evaluated.
`hash_keeps_all`: no key is lost, if the keys are different scalars, and strings among them have
different digests; `hash_loses_key`: two strings of one digest.
-/
import Scriptlet.Proofs.Evaluation.InTurn
import Scriptlet.Tree.Build

namespace Scriptlet

/-- The tree of a hash. -/
def Layer.hash (pairs : List (Tree × Tree)) : Tree :=
  .node .hash (pairs.map pair)

namespace Eval

variable {evaluate : Tree → ScopeId → Eval Value} {apply : Value → List Value → Eval Value}
  {scope : ScopeId} {store middle reached : Store} {values : List Value}

/-! ### The step of a hash -/

/-- **A hash whose parts are evaluated calmly collects their values**, if its keys are keys. -/
theorem runFrom_step_hash {pairs : List (Tree × Tree)}
    (calmly : Calmly evaluate scope (Layer.both pairs) store values reached)
    (keyed : Layer.Keyed values) :
    (step evaluate apply scope (Layer.hash pairs)).runFrom store =
      (.ok (.hash reached.identities (Value.collect (Value.paired values))), reached.identify.2) := by
  rw [← List.append_nil (Layer.both pairs)] at calmly
  obtain ⟨middle, given, others, split, calmly, -, same⟩ := runFrom_pairs_calmly calmly keyed
  cases calmly
  have all : Value.paired values = given := split.trans (List.append_nil given)
  show (Eval.pairs evaluate scope [] (pairs.map Layer.pair)).runFrom store = _
  rw [all, ← List.append_nil (pairs.map Layer.pair), same]
  rfl

variable {before : List (Tree × Tree)} {rest : List Tree} {key second : Tree} {bad : Value}

/-- A key that is none: what becomes of the hash depends on whether it has a type. -/
theorem runFrom_step_unhashable (calmly : Calmly evaluate scope (Layer.both before) store values middle)
    (keyed : Layer.Keyed values) (ran : (evaluate key scope).runFrom middle = (.ok bad, reached))
    (calm : bad.isSignal = false) (unhashable : bad.key? = none) :
    (step evaluate apply scope
      (.node .hash (before.map Layer.pair ++ Layer.pair (key, second) :: rest))).runFrom store =
        (do complain (.notAKey (← tagOf bad))).runFrom reached := by
  rw [← List.append_nil (Layer.both before)] at calmly
  obtain ⟨middle, given, others, -, calmly, -, same⟩ := runFrom_pairs_calmly calmly keyed
  cases calmly
  refine (same [] _).trans ((runFrom_used_calm ran _ calm).trans ?_)
  rw [unhashable]

/-! ### What is evaluated for a hash -/

variable {other : Tree → ScopeId → Eval Value} {done : List (Value × Value)} {result : Value}
  {last : Store}

/-- An evaluation yields a value only where another one yields that value. -/
def Refines (first second : Tree → ScopeId → Eval Value) : Prop :=
  ∀ tree scope store value after, (first tree scope).runFrom store = (.ok value, after) →
    (second tree scope).runFrom store = (.ok value, after)

/-- Pairs that come to a value have all been evaluated: where they are evaluated calmly otherwise, they
are evaluated in the same way. -/
theorem Calmly.of_pairs (refines : Refines evaluate other)
    (calmly : Calmly other scope (Layer.both before) store values middle)
    (keyed : Layer.Keyed values)
    (ran : (pairs evaluate scope done (before.map Layer.pair ++ rest)).runFrom store =
      (.ok result, last)) : Calmly evaluate scope (Layer.both before) store values middle := by
  induction before generalizing store values done with
  | nil =>
    cases calmly
    exact .nil
  | cons parts before ih =>
    obtain _ | ⟨first, calm, _ | ⟨second, calm', calmly⟩⟩ := calmly
    obtain ⟨isKey, keyed⟩ := keyed
    obtain ⟨_, found⟩ := Option.isSome_iff_exists.mp isKey
    obtain ⟨yielded, between, head, ran⟩ := exists_of_runFrom_bind ran
    cases (refines _ _ _ _ _ head).symm.trans first
    rw [unlessSignal, calm, if_neg Bool.false_ne_true, found] at ran
    obtain ⟨yielded, between, next, ran⟩ := exists_of_runFrom_bind ran
    cases (refines _ _ _ _ _ next).symm.trans second
    rw [unlessSignal, calm', if_neg Bool.false_ne_true] at ran
    exact .cons head calm (.cons next calm' (ih calmly keyed ran))

/-- So is a key after them. -/
theorem exists_of_pairs (calmly : Calmly evaluate scope (Layer.both before) store values middle)
    (keyed : Layer.Keyed values)
    (ran : (pairs evaluate scope done
      (before.map Layer.pair ++ Layer.pair (key, second) :: rest)).runFrom store =
        (.ok result, last)) :
    ∃ value after, (evaluate key scope).runFrom middle = (.ok value, after) := by
  rw [← List.append_nil (Layer.both before)] at calmly
  obtain ⟨middle, given, others, -, calmly, -, same⟩ := runFrom_pairs_calmly calmly keyed
  cases calmly
  obtain ⟨value, after, head, -⟩ := exists_of_runFrom_bind ((same done _).symm.trans ran)
  exact ⟨value, after, head⟩

end Eval

/-- The keys among values of keys and values in turn are keys. -/
theorem isSome_of_keyed {values : List Value} (keyed : Layer.Keyed values) :
    ∀ pair ∈ Value.paired values, pair.1.key?.isSome = true := by
  fun_induction Value.paired values with
  | case1 key value rest ih => exact List.forall_mem_cons.mpr ⟨keyed.1, ih keyed.2⟩
  | case2 => exact fun pair member => absurd member List.not_mem_nil

/-! ### Whole evaluations -/

section Whole

variable {limit : Nat} {scope : ScopeId} {store middle reached : Store} {values : List Value}

/-- A watched evaluation refines the evaluation itself. -/
theorem refines_watched (permits : Moment → Store → Prop) (alarm : Fault) (limit : Nat) :
    Eval.Refines (evaluateWatched permits alarm limit) (evaluate limit) :=
  fun _ _ _ _ _ => runFrom_evaluate_of_watched

/-- **A hash collects the values of its parts**, if they are evaluated calmly and its keys are keys;
and just its parts are evaluated. -/
theorem evaluatesJust_hash {pairs : List (Tree × Tree)}
    (calmly : Eval.Calmly (evaluate limit) scope (Layer.both pairs) store values reached)
    (keyed : Layer.Keyed values) :
    EvaluatesJust limit (Layer.hash pairs) scope (Layer.both pairs) store
      (.hash reached.identities (Value.collect (Value.paired values))) reached.identify.2 := by
  have ran : (evaluate (limit + 1) (Layer.hash pairs) scope).runFrom store = _ :=
    Eval.runFrom_step_hash calmly keyed
  refine ⟨ran, fun permits => ?_⟩
  rw [alwaysEvaluating_succ_iff .valueMissing ran, ← calmly.watched_iff .valueMissing]
  refine and_congr_right fun _ => and_congr_left fun _ => ⟨fun stepped => ?_, fun watched => ?_⟩
  · have opened : (Eval.pairs (evaluateWatched permits .valueMissing limit) scope []
        (pairs.map Layer.pair ++ [])).runFrom store =
          (.ok (.hash reached.identities (Value.collect (Value.paired values))),
            reached.identify.2) := by
      rw [List.append_nil]
      exact stepped
    exact .of_pairs (refines_watched permits .valueMissing limit) calmly keyed opened
  · exact Eval.runFrom_step_hash watched keyed

/-- **A key that is none ends a hash in an error**, if the parts before it are evaluated calmly and the
keys among them are keys; and just these parts and the key are evaluated. -/
theorem evaluatesJust_unhashable {before : List (Tree × Tree)} {rest : List Tree} {key second : Tree}
    {bad : Value} {tag : Tag}
    (calmly : Eval.Calmly (evaluate limit) scope (Layer.both before) store values middle)
    (keyed : Layer.Keyed values)
    (ran : (evaluate limit key scope).runFrom middle = (.ok bad, reached))
    (calm : bad.isSignal = false) (unhashable : bad.key? = none) (tagged : bad.tag? = some tag) :
    EvaluatesJust limit
      (.node .hash (before.map Layer.pair ++ Layer.pair (key, second) :: rest)) scope
      (Layer.both before ++ [key]) store (.error reached.identities (.notAKey tag))
      reached.identify.2 := by
  have complains : (do Eval.complain (.notAKey (← Eval.tagOf bad))).runFrom reached =
      (.ok (.error reached.identities (.notAKey tag)), reached.identify.2) := by
    rw [Eval.tagOf, tagged]
    rfl
  have yields : (evaluate (limit + 1)
      (.node .hash (before.map Layer.pair ++ Layer.pair (key, second) :: rest)) scope).runFrom store =
        (.ok (.error reached.identities (.notAKey tag)), reached.identify.2) :=
    (Eval.runFrom_step_unhashable calmly keyed ran calm unhashable).trans complains
  refine ⟨yields, fun permits => ?_⟩
  have refines := refines_watched permits .valueMissing limit
  have last : Eval.Calmly (evaluate limit) scope [key] middle [bad] reached := .cons ran calm .nil
  rw [alwaysEvaluating_succ_iff .valueMissing yields, alwaysInTurn_append calmly,
    ← calmly.watched_iff .valueMissing, ← last.watched_iff .valueMissing]
  refine and_congr_right fun _ => and_congr_left fun _ => ⟨fun stepped => ?_, ?_⟩
  · have first := Eval.Calmly.of_pairs refines calmly keyed stepped
    obtain ⟨yielded, after, head⟩ := Eval.exists_of_pairs first keyed stepped
    cases (refines _ _ _ _ _ head).symm.trans ran
    exact ⟨first, .cons head calm .nil⟩
  · rintro ⟨first, _ | ⟨head, -, ⟨⟩⟩⟩
    exact (Eval.runFrom_step_unhashable first keyed head calm unhashable).trans complains

end Whole

/-- **Hashes from what is written in them.** If the parts of a hash are evaluated calmly and its keys
are keys, it holds one entry for each key, in the order in which the keys first occur, and the entry
is the key and the value of the last pair of that key. Only keys of one type have a common entry, and
unless they are strings, only equal ones. If the parts before a key are evaluated calmly and the keys
among them are keys, but the key itself is calm and none, the hash yields an error that names its type;
there is no such value without a type but a missing one, which is a fault. Either way just these parts
are evaluated, from left to right. -/
theorem hash_evaluated (limit : Nat) (scope : ScopeId) (pairs : List (Tree × Tree)) (store : Store) :
    (∀ values reached,
      Eval.Calmly (evaluate limit) scope (Layer.both pairs) store values reached →
      Layer.Keyed values → ∃ result,
        EvaluatesJust limit (Layer.hash pairs) scope (Layer.both pairs) store
          (.hash reached.identities result) reached.identify.2 ∧
        Collects (Value.paired values) result ∧
        ∀ first ∈ Value.paired values, ∀ second ∈ Value.paired values,
          first.1.key? = second.1.key? → first.1.tag? = second.1.tag? ∧
            (first.1.content? = second.1.content? ∨ first.1.tag? = some .string)) ∧
    ∀ before key second rest, pairs = before ++ (key, second) :: rest →
      ∀ values middle bad reached,
        Eval.Calmly (evaluate limit) scope (Layer.both before) store values middle →
        Layer.Keyed values → (evaluate limit key scope).runFrom middle = (.ok bad, reached) →
        bad.isSignal = false → bad.key? = none →
        (∀ tag, bad.tag? = some tag →
          EvaluatesJust limit (Layer.hash pairs) scope (Layer.both before ++ [key]) store
            (.error reached.identities (.notAKey tag)) reached.identify.2 ∧
          (Complaint.notAKey tag).message = "unusable as hash key: " ++ tag.name) ∧
        (bad.tag? = none → (evaluate (limit + 1) (Layer.hash pairs) scope).runFrom store =
          (.error .valueMissing, reached)) := by
  refine ⟨fun values reached calmly keyed => ?_, ?_⟩
  · refine ⟨_, evaluatesJust_hash calmly keyed, Value.collects _, fun first inFirst second _ same => ?_⟩
    exact Value.content?_of_key? (isSome_of_keyed keyed first inFirst) same
  · rintro before key second rest rfl values middle bad reached calmly keyed ran calm unhashable
    have shape : Layer.hash (before ++ (key, second) :: rest) =
        .node .hash (before.map Layer.pair ++ Layer.pair (key, second) :: rest.map Layer.pair) := by
      rw [Layer.hash, List.map_append, List.map_cons]
    rw [shape]
    refine ⟨fun tag tagged => ?_, fun untagged => ?_⟩
    · exact ⟨evaluatesJust_unhashable calmly keyed ran calm unhashable tagged, rfl⟩
    · refine (Eval.runFrom_step_unhashable calmly keyed ran calm unhashable).trans ?_
      rw [Eval.tagOf, untagged]
      rfl

/-- The hashes `{1: puts(1), true: 2, 1: 3}` and `{1: puts(1), fn() {}: 2}`. -/
theorem hash_evaluated_twice :
    let puts := Build.call (Build.identifier "puts") [Build.integer 1]
    let pairs := [(Build.integer 1, puts), (Build.boolean true, Build.integer 2),
      (Build.integer 1, Build.integer 3)]
    let key := Build.function [] (Build.block [])
    let wrong := [(Build.integer 1, puts), (key, Build.integer 2)]
    let values : List Value := [.integer 1, .null, .boolean true, .integer 2, .integer 1, .integer 3]
    let printed : Store := Store.initial.print "1"
    (Eval.Calmly (evaluate 2) Store.root (Layer.both pairs) .initial values printed ∧
      Layer.Keyed values ∧ ∃ result,
        EvaluatesJust 2 (Layer.hash pairs) Store.root (Layer.both pairs) .initial (.hash 0 result)
          printed.identify.2 ∧ Collects (Value.paired values) result) ∧
    EvaluatesJust 2 (Layer.hash wrong) Store.root [Build.integer 1, puts, key] .initial
      (.error 1 (.notAKey .function)) printed.identify.2.identify.2 := by
  intro puts pairs key wrong values printed
  have calmly : Eval.Calmly (evaluate 2) Store.root (Layer.both pairs) .initial values printed :=
    .cons rfl rfl (.cons rfl rfl (.cons rfl rfl (.cons rfl rfl (.cons rfl rfl (.cons rfl rfl .nil)))))
  have keyed : Layer.Keyed values := ⟨rfl, rfl, rfl, trivial⟩
  obtain ⟨result, just, collects, -⟩ := (hash_evaluated 2 Store.root pairs .initial).1 values printed
    calmly keyed
  refine ⟨⟨calmly, keyed, result, just, collects⟩, ?_⟩
  have first : Eval.Calmly (evaluate 2) Store.root (Layer.both [(Build.integer 1, puts)]) .initial
      [.integer 1, .null] printed := .cons rfl rfl (.cons rfl rfl .nil)
  exact (((hash_evaluated 2 Store.root wrong .initial).2 [(Build.integer 1, puts)] key
    (Build.integer 2) [] rfl [.integer 1, .null] printed (.function 0 [] (Build.block []) Store.root)
    printed.identify.2 first ⟨rfl, trivial⟩ rfl rfl rfl).1 .function rfl).1

/-! ### Keys that are lost -/

/-- There are as many pairs of values as of trees. -/
theorem length_paired {evaluate : Tree → ScopeId → Eval Value} {scope : ScopeId}
    {pairs : List (Tree × Tree)} {store reached : Store} {values : List Value}
    (calmly : Eval.Calmly evaluate scope (Layer.both pairs) store values reached) :
    (Value.paired values).length = pairs.length := by
  induction pairs generalizing store values with
  | nil =>
    cases calmly
    rfl
  | cons parts rest ih =>
    obtain _ | ⟨-, -, _ | ⟨-, -, calmly⟩⟩ := calmly
    exact congrArg (· + 1) (ih calmly)

/-- **No key is lost but by its digest.** If the parts of a hash are evaluated calmly, and its keys are
scalars of different contents, the hash has just the pairs that are written if no two keys are different
strings of one digest; if two are, it has fewer. -/
theorem hash_keeps_all (limit : Nat) (scope : ScopeId) (pairs : List (Tree × Tree))
    (store reached : Store) (values : List Value)
    (calmly : Eval.Calmly (evaluate limit) scope (Layer.both pairs) store values reached)
    (keyed : Layer.Keyed values)
    (distinct : ((Value.paired values).map fun pair => pair.1.content?).Nodup) :
    ∃ result, (evaluate (limit + 1) (Layer.hash pairs) scope).runFrom store =
        (.ok (.hash reached.identities result), reached.identify.2) ∧
      (Value.DigestsApart (Value.paired values) →
        result = Value.paired values ∧ result.length = pairs.length) ∧
      (¬ Value.DigestsApart (Value.paired values) → result.length < pairs.length) := by
  have length := length_paired calmly
  refine ⟨_, (evaluatesJust_hash calmly keyed).ran, fun apart => ?_, fun together => ?_⟩
  · have all := (Value.collect_eq_iff _).mpr ((Value.nodup_keysOf_iff distinct).mpr apart)
    rw [all]
    exact ⟨rfl, length⟩
  · rw [← length]
    exact Value.length_collect_lt fun nodup => together ((Value.nodup_keysOf_iff distinct).mp nodup)

/-- The hash `{1: 2, true: 3, "1": 4}`, where no content has the same digest as another. -/
theorem hash_keeps_all_types :
    let pairs := [(Build.integer 1, Build.integer 2), (Build.boolean true, Build.integer 3),
      (Build.string "1", Build.integer 4)]
    let values : List Value :=
      [.integer 1, .integer 2, .boolean true, .integer 3, .string 0 "1", .integer 4]
    let reached : Store := { Store.initial with identities := 1 }
    (Eval.Calmly (evaluate 1) Store.root (Layer.both pairs) .initial values reached ∧
      Layer.Keyed values ∧ ((Value.paired values).map fun pair => pair.1.content?).Nodup ∧
      Value.DigestsApart (Value.paired values)) ∧
    (evaluate 2 (Layer.hash pairs) Store.root).runFrom .initial =
      (.ok (.hash 1 (Value.paired values)), reached.identify.2) := by
  intro pairs values reached
  have calmly : Eval.Calmly (evaluate 1) Store.root (Layer.both pairs) .initial values reached :=
    .cons rfl rfl (.cons rfl rfl (.cons rfl rfl (.cons rfl rfl (.cons rfl rfl (.cons rfl rfl .nil)))))
  have keyed : Layer.Keyed values := ⟨rfl, rfl, rfl, trivial⟩
  have distinct : ((Value.paired values).map fun pair => pair.1.content?).Nodup := by decide
  have apart : Value.DigestsApart (Value.paired values) := by
    simp [Value.DigestsApart, values, Value.paired, Value.content?]
  obtain ⟨result, ran, keeps, -⟩ := hash_keeps_all 1 Store.root pairs .initial reached values calmly
    keyed distinct
  rw [(keeps apart).1] at ran
  exact ⟨⟨calmly, keyed, distinct, apart⟩, ran⟩

/-- Two strings of one digest, and the hash that has only the second of them. -/
theorem hash_loses_key :
    let first := "oledhaekadcgakpf"
    let second := "mfjgddhnmdchiedh"
    let pairs : List (Tree × Tree) :=
      [(.node .string [.leaf ⟨.string, first, ⟨1, 2, 1⟩, 19⟩],
          .node .integer [.leaf ⟨.integer, "1", ⟨1, 22, 21⟩, 22⟩]),
        (.node .string [.leaf ⟨.string, second, ⟨1, 25, 24⟩, 42⟩],
          .node .integer [.leaf ⟨.integer, "2", ⟨1, 45, 44⟩, 45⟩])]
    let program : Tree := .node .program [.node .expressionStatement [Layer.hash pairs]]
    let values : List Value := [.string 0 first, .integer 1, .string 1 second, .integer 2]
    let reached : Store := { Store.initial with identities := 2 }
    first ≠ second ∧
    parse "\x7b\"oledhaekadcgakpf\": 1, \"mfjgddhnmdchiedh\": 2\x7d" = .ok program ∧
    ∀ limit,
      (Eval.Calmly (evaluate (limit + 1)) Store.root (Layer.both pairs) .initial values reached ∧
        Layer.Keyed values ∧ ((Value.paired values).map fun pair => pair.1.content?).Nodup) ∧
      (evaluate (limit + 4) program Store.root).runFrom .initial =
        (.ok (.hash 2 [(.string 1 second, .integer 2)]), reached.identify.2) := by
  intro first second pairs program values reached
  refine ⟨by decide, rfl, fun limit => ?_⟩
  have calmly : Eval.Calmly (evaluate (limit + 1)) Store.root (Layer.both pairs) .initial values
      reached := .cons rfl rfl (.cons rfl rfl (.cons rfl rfl (.cons rfl rfl .nil)))
  have keyed : Layer.Keyed values := ⟨rfl, rfl, trivial⟩
  have digests : Text.digest first = Text.digest second := by decide +kernel
  refine ⟨⟨calmly, keyed, by decide⟩, ?_⟩
  have given : Value.paired values =
    [(.string 0 first, .integer 1), (.string 1 second, .integer 2)] := rfl
  have ran := (evaluatesJust_hash calmly keyed).ran
  rw [given, Value.collect_of_digest digests] at ran
  rw [evaluate_expressing, Eval.runFrom_return, ran]
  rfl

end Scriptlet
