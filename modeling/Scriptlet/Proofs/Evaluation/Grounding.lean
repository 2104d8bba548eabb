/-
**Scopes stay well founded.**

A function holds the scope it was made in, and that scope may hold the function again. What scopes
lie in has no such cycles: a scope is only ever added within one that is there, and stays there.

* `Value.Scoped`: every function in a value, however deep, was made in a scope that is there.
* `Value.EntersDeeper`: the body of a function is evaluated one deeper than the function was made.
* `Moment.Grounded`: every scope leads outward to the root, and every scope that is referred to is
  there.
* `outward`, `grounding`: the policies of what scopes lie in, and of what refers to scopes.

Main statement: `scopes_grounded`. Whatever sources are run in turn from an empty store, every moment
is grounded, and what scopes lie in at any moment begins what they lie in at the end.
-/
import Scriptlet.Proofs.Evaluation.Accounted
import Scriptlet.Proofs.Evaluation.Limit
import Scriptlet.Proofs.Evaluation.Submissions
import Scriptlet.Proofs.Store.Outward

namespace Scriptlet

/-- A value that is a function was made in one of so many scopes. -/
def Value.ScopedItself (scopes : Nat) : Value → Prop
  | function _ _ _ scope => scope < scopes
  | _ => True

/-- Every function in a value was made in one of so many scopes. -/
def Value.Scoped (scopes : Nat) (value : Value) : Prop :=
  value.Throughout (Value.ScopedItself scopes)

/-- The body of a function is evaluated on a new scope, which lies in the scope that the function was
made in and is one deeper than that, whatever scope the call stands on. -/
def Value.EntersDeeper (callee : Value) (arguments : List Value) (store : Store) : Prop :=
  ∀ identity parameters body scope, callee = .function identity parameters body scope →
    ∃ entered : Store, entered.outers = store.outers ++ [some scope] ∧
      entered.depth store.scopes.size = store.depth scope + 1 ∧
      ∀ inspect evaluate, (Eval.call inspect evaluate callee arguments).runFrom store =
        (do return (← evaluate body store.scopes.size).unwrap : Eval Value).runFrom entered

/-- Every scope leads to the root, and functions that are bound were made in scopes that are there. -/
structure Store.Grounded (store : Store) : Prop where
  rooted : ∀ id < store.scopes.size, store.Rooted id
  holds : store.Holds (Value.Scoped store.scopes.size)

/-- On a grounded store, a moment refers only to scopes that are there. -/
def Moment.Grounded (moment : Moment) (store : Store) : Prop :=
  store.Grounded ∧
    match moment with
    | .entered _ scope => scope < store.scopes.size
    | .yielded _ value => value.Scoped store.scopes.size
    | .applied callee arguments => callee.Scoped store.scopes.size ∧
        (∀ argument ∈ arguments, argument.Scoped store.scopes.size) ∧
        callee.EntersDeeper arguments store

/-! ### What scopes lie in -/

/-- Whatever is evaluated, scopes are only added, and stay in what they lie in. -/
def outward : Policy :=
  { growth with
    moves := fun before after => before.outers <+: after.outers
    refl := fun _ => List.prefix_refl _
    trans := List.IsPrefix.trans
    admits_moves := fun _ _ => trivial
    held_moves := fun _ _ => trivial
    binds_moves := fun _ _ => trivial
    bind := fun _ _ _ => ⟨trivial, by simp⟩
    identify := fun _ => ⟨trivial, List.prefix_refl _⟩
    print := fun _ _ => ⟨trivial, List.prefix_refl _⟩
    enter := fun _ _ => ⟨trivial, by simp, trivial, fun _ => trivial⟩ }

theorem outward_isOpen : outward.Open :=
  ⟨fun _ => trivial, fun _ _ _ => trivial, fun _ _ => trivial, fun _ _ _ => trivial⟩

/-- After a moment at which what scopes lie in does not begin a list, it does not do so in the end,
for it begins what scopes lie in by then. -/
def straying (outers : List (Option ScopeId)) : Aftermath where
  policy := outward
  isOpen := outward_isOpen
  more := 0
  ends reached _ last := ¬ reached.outers <+: outers ∧ reached.outers <+: last.outers
  onward strays moves := ⟨strays.1, strays.2.trans moves⟩

theorem straying_covers (outers : List (Option ScopeId)) :
    (straying outers).Covers fun _ now => now.outers <+: outers where
  entered strays limit := ⟨strays, outward_isOpen.evaluate_moves (limit + 1) ..⟩
  yielded strays := ⟨strays, List.prefix_refl _⟩
  applied strays limit := ⟨strays, outward_isOpen.apply_moves limit ..⟩

/-- **What scopes lie in at any moment of an evaluation** begins what they lie in at its end. -/
theorem always_outers_prefix {limit : Nat} {tree : Tree} {scope : ScopeId} {store : Store}
    {outers : List (Option ScopeId)}
    (ended : ((evaluate limit tree scope).runFrom store).2.outers <+: outers) :
    AlwaysEvaluating (fun _ now => now.outers <+: outers) limit tree scope store := by
  rcases always_or_stopped (straying_covers outers) rfl limit tree scope store with always | stopped
  · exact always
  · obtain ⟨reached, -, strays, begins⟩ := stopped
    exact absurd (begins.trans ended) strays

/-! ### What refers to scopes -/

namespace Value.Scoped

variable {scopes more : Nat} {value : Value}

/-- Scopes that are there stay there. -/
theorem mono (made : value.Scoped scopes) (within : scopes ≤ more) : value.Scoped more := by
  refine Throughout.mono made fun inner here => ?_
  cases inner with
  | function => exact Nat.lt_of_lt_of_le here within
  | _ => trivial

/-- A value without parts refers to no scope but by itself. -/
theorem of_plain (plain : value.ScopedItself scopes) (simple : value.parts = []) :
    value.Scoped scopes :=
  .of_parts_eq_nil plain simple

end Value.Scoped

theorem Store.size_le_of_outers {before after : Store} (moves : before.outers <+: after.outers) :
    before.scopes.size ≤ after.scopes.size := by
  have shorter := moves.length_le
  rwa [length_outers, length_outers] at shorter

/-- Trees may be evaluated on scopes that are there, and values may be held that refer to such. -/
def grounding : Policy where
  good store := store.WellFounded ∧ store.Holds (Value.Scoped store.scopes.size)
  moves before after := before.outers <+: after.outers
  faults _ := True
  refl _ := List.prefix_refl _
  trans := List.IsPrefix.trans
  admits store scope _ := scope < store.scopes.size
  held store value := value.Scoped store.scopes.size
  binds _ _ _ := True
  admits_moves moves inside := Nat.lt_of_lt_of_le inside (Store.size_le_of_outers moves)
  held_moves moves made := made.mono (Store.size_le_of_outers moves)
  binds_moves _ _ := trivial
  bind := fun {store scope name value} good _ made => by
    have same := Store.outers_bind store scope name value
    have size : (store.bind scope name value).scopes.size = store.scopes.size := by
      rw [← Store.length_outers, same, Store.length_outers]
    refine ⟨⟨good.1.congr same, ?_⟩, same ▸ List.prefix_refl _⟩
    rw [size]
    exact good.2.bind scope name made
  identify good := ⟨⟨good.1.congr rfl, good.2⟩, List.prefix_refl _⟩
  print _ good := ⟨⟨good.1.congr rfl, good.2⟩, List.prefix_refl _⟩
  enter := fun {store _ _ _ scope} good made => by
    have size : (store.enclose (some scope)).2.scopes.size = store.scopes.size + 1 := by
      rw [← Store.length_outers, Store.outers_enclose, List.length_append, Store.length_outers,
        List.length_singleton]
    refine ⟨⟨good.1.enclose made.here, ?_⟩, by simp, ?_, fun _ => trivial⟩
    · rw [size]
      exact (good.2.enclose (some scope)).mono fun _ held => held.mono (Nat.le_succ _)
    · rw [size]
      exact Nat.lt_succ_self _
  lookup good found := good.2.of_lookup? found
  operand inside _ := inside
  consumed _ _ := Or.inr fun _ => .of_plain trivial rfl
  named _ _ := trivial
  literal _ _ _ := .of_plain trivial rfl
  function _ inside _ _ := .of_plain inside rfl
  null := .of_plain trivial rfl
  boolean _ := .of_plain trivial rfl
  builtin _ := .of_plain trivial rfl
  string _ _ := .of_plain trivial rfl
  wrapped _ := .of_plain trivial rfl
  measured _ := .of_plain trivial rfl
  array _ _ each := .array trivial each
  hash _ _ each := .hash trivial each
  element held member := held.part _ member
  returned held := held.part _ List.mem_cons_self
  division := trivial
  nesting := trivial
  flaw _ _ := trivial
  inspect _ _ := trivial

/-! ### Calls -/

/-- Names bound on a scope change nothing of what scopes lie in. -/
theorem Eval.runFrom_bindAll (scope : ScopeId) (bindings : List (String × Value)) (store : Store) :
    ∃ after : Store, (bindAll scope bindings).runFrom store = (.ok (), after) ∧
      after.outers = store.outers := by
  induction bindings generalizing store with
  | nil => exact ⟨store, rfl, rfl⟩
  | cons pair rest ih =>
    obtain ⟨name, value⟩ := pair
    obtain ⟨after, ran, same⟩ := ih (store.bind scope name value)
    refine ⟨after, ?_, same.trans (Store.outers_bind store scope name value)⟩
    exact (runFrom_bind_of_ok (runFrom_modify _ store) _).trans ran

/-- **The scope of a call** lies in the scope that the function was made in. -/
theorem grounding.entersDeeper {store : Store} (good : grounding.good store) {callee : Value}
    (made : callee.Scoped store.scopes.size) (arguments : List Value) :
    callee.EntersDeeper arguments store := by
  rintro identity parameters body scope rfl
  have inside : scope < store.scopes.size := made.here
  obtain ⟨entered, bound, same⟩ := Eval.runFrom_bindAll store.scopes.size (parameters.zip arguments)
    (store.enclose (some scope)).2
  have added : entered.outers = store.outers ++ [some scope] := same.trans (Store.outers_enclose ..)
  refine ⟨entered, added, ?_, fun inspect evaluate => ?_⟩
  · -- the way outward from the new scope goes on as the way from the function's
    obtain ⟨path, way⟩ := good.1.ordered.exists_outward inside
    have found : entered.outers[store.scopes.size]? = some (some scope) := by
      rw [added, ← Store.length_outers, List.getElem?_concat_length]
    have longer := Store.Outward.around found (way.mono ⟨_, added.symm⟩)
    have founded : entered.WellFounded := (good.1.enclose inside).congr same
    have size : store.scopes.size < entered.scopes.size := by
      rw [← Store.length_outers entered, added, List.length_append, Store.length_outers]
      exact Nat.lt_succ_self _
    have depth := (good.1.rooted inside).depth way
    have deeper := (founded.rooted size).depth longer
    rw [List.length_cons, depth] at deeper
    exact (Nat.succ.inj deeper).symm
  · refine (Eval.runFrom_bind_of_ok (Eval.runFrom_modifyGet _ store) _).trans ?_
    exact Eval.runFrom_bind_of_ok bound _

/-! ### Moments -/

namespace grounding

variable {store : Store} {value : Value}

theorem grounded (good : grounding.good store) : store.Grounded :=
  ⟨fun _ inside => good.1.rooted inside, good.2⟩

theorem scoped_of_yields {tree : Tree} (yielded : grounding.Yields tree store value) :
    value.Scoped store.scopes.size := by
  cases yielded with
  | settled settled =>
    cases settled with
    | held made => exact made
    | error => exact .of_plain trivial rfl
  | returned _ _ made => exact .intro trivial (List.forall_mem_singleton.mpr made)
  | nothing => exact .of_plain trivial rfl

/-- The moments that the policy allows are grounded. -/
theorem grounded_of_allows (moment : Moment) (store : Store)
    (allowed : grounding.Allows moment store) : moment.Grounded store := by
  cases moment with
  | entered => exact ⟨grounded allowed.1, allowed.2⟩
  | yielded => exact ⟨grounded allowed.1, scoped_of_yields allowed.2⟩
  | applied _ arguments =>
    obtain ⟨good, callee, each⟩ := allowed
    exact ⟨grounded good, callee, each, entersDeeper good callee arguments⟩

end grounding

/-! ### Sources run in turn -/

namespace Policy.Open

variable {policy : Policy} (isOpen : policy.Open) (limit : Nat)

include isOpen

/-- A run changes a store as an open policy says. -/
theorem runWithin_moves (source : String) (store : Store) :
    policy.moves store (runWithin limit source Store.root store).2 := by
  cases accepted : parse source with
  | error reason =>
    rw [runWithin, accepted]
    exact policy.refl store
  | ok program =>
    rw [runWithin_of_parse accepted]
    exact isOpen.evaluate_moves limit program Store.root store

/-- So do runs in turn. -/
theorem submitted_moves (sources : List String) (store : Store) :
    policy.moves store (submitted limit sources store) := by
  induction sources generalizing store with
  | nil => exact policy.refl store
  | cons source rest ih => exact policy.trans (isOpen.runWithin_moves limit source store) (ih _)

/-- After one of the programs is run, so do the runs that are left. -/
theorem moves_of_runsAmong {sources : List String} {program : Tree} {store before : Store}
    (runs : RunsAmong limit store sources program before) :
    policy.moves ((evaluate limit program Store.root).runFrom before).2
      (submitted limit sources store) := by
  induction runs with
  | @here store source rest program accepted =>
    have ran : ((evaluate limit program Store.root).runFrom store).2 =
        (runWithin limit source Store.root store).2 := by rw [runWithin_of_parse accepted]
    rw [ran]
    exact isOpen.submitted_moves limit rest _
  | later _ ih => exact ih

end Policy.Open

namespace grounding

variable {store : Store}

/-- A run leaves a good store. -/
theorem runWithin_good (good : grounding.good store) (limit : Nat) (source : String) :
    grounding.good (runWithin limit source Store.root store).2 := by
  cases accepted : parse source with
  | error reason =>
    rw [runWithin, accepted]
    exact good
  | ok program =>
    rw [runWithin_of_parse accepted]
    exact (Policy.evaluate_agree .valueMissing grounded_of_allows limit good
      (show grounding.admits store Store.root program from good.1.root_lt)).good

/-- So every program is run on a good store. -/
theorem good_of_runsAmong {limit : Nat} {sources : List String} {program : Tree} {before : Store}
    (good : grounding.good store) (runs : RunsAmong limit store sources program before) :
    grounding.good before := by
  induction runs with
  | here => exact good
  | later _ ih => exact ih (runWithin_good good limit _)

end grounding

/-- **What scopes lie in stays well founded.** Whatever sources are run in turn from an empty store,
at every moment of every run the store is grounded and what the moment refers to is there, and a call
is evaluated one deeper than its function was made; what scopes lie in begins what they lie in when
all sources have been run, so it never changes. So it is after every run. -/
theorem scopes_grounded {limit : Nat} {sources : List String} {program : Tree} {store : Store}
    (runs : RunsAmong limit .initial sources program store) :
    let ended := (evaluate limit program Store.root).runFrom store
    let outers := (submitted limit sources .initial).outers
    AlwaysEvaluating Moment.Grounded limit program Store.root store ∧
      AlwaysEvaluating (fun _ now => now.outers <+: outers) limit program Store.root store ∧
      ended.2.Grounded ∧ ended.2.outers <+: outers ∧
      ∀ value, ended.1 = .ok value → value.Scoped ended.2.scopes.size := by
  intro ended outers
  have good := grounding.good_of_runsAmong ⟨.initial, .initial⟩ runs
  have admitted : grounding.admits store Store.root program := good.1.root_lt
  have agree := fun alarm =>
    Policy.evaluate_agree alarm grounding.grounded_of_allows limit good admitted
  have begins : ended.2.outers <+: outers := outward_isOpen.moves_of_runsAmong limit runs
  exact ⟨fun alarm => (agree alarm).same, always_outers_prefix begins,
    grounding.grounded (agree .valueMissing).good, begins,
    fun value result => grounding.scoped_of_yields ((agree .valueMissing).yields value result)⟩

/-- Calls within calls of one function lie in the one scope that it was made in. -/
theorem scopes_grounded_recursion :
    let sources := ["let f = fn(n) { if (n < 1) { n } else { f(n - 1) } };", "f(2)"]
    let store := (runWithin 20 "let f = fn(n) { if (n < 1) { n } else { f(n - 1) } };" Store.root
      .initial).2
    ∃ program, RunsAmong 20 .initial sources program store ∧
      AlwaysEvaluating Moment.Grounded 20 program Store.root store ∧
      let ended := (evaluate 20 program Store.root).runFrom store
      ended.2.Grounded ∧
      ended.2.outers = [none, some Store.root, some Store.root, some Store.root] ∧
      (List.range 4).map ended.2.depth = [0, 1, 1, 1] := by
  intro sources store
  obtain ⟨program, accepted⟩ : ∃ program, parse "f(2)" = .ok program := ⟨_, rfl⟩
  have runs : RunsAmong 20 .initial sources program store := .later (.here accepted)
  have ran : ((evaluate 20 program Store.root).runFrom store).2 =
      (runWithin 20 "f(2)" Store.root store).2 := by rw [runWithin_of_parse accepted]
  obtain ⟨always, -, grounded, -, -⟩ := scopes_grounded runs
  refine ⟨program, runs, always, grounded, ?_, ?_⟩
  · rw [ran]
    decide +kernel
  · rw [ran]
    decide +kernel

end Scriptlet
