/-
**A name that a program does not use.**

A program reads and binds by name, closures keep scopes by reference, and a name is looked for on
chains of scopes of any length. A name bound on the root scope that no token of the program spells
is met by none of this.

* `Scope.seenBindings`: names with what is seen of their values.
* `Embedding.besideBinding`: a run on an empty store, in a run on a store whose root scope binds one
  name.

Main statement: `run_unused_name`. A program that does not use a name runs alike where the name is
bound and where nothing is: it prints the same, ends in the same fault or with a value of the same
type and text, and binds the same names to such values, beside the one that is as it was.
-/
import Scriptlet.Proofs.Evaluation.Embedded
import Scriptlet.Proofs.Evaluation.Safety

namespace Scriptlet

/-- Names with what is seen of their values. -/
def Scope.seenBindings (bindings : List (String × Value)) :
    List (String × Option Tag × Except Fault String) :=
  bindings.map fun pair => (pair.1, pair.2.seen)

namespace Embedding

/-- A run that starts on an empty store, beside one name bound on the root scope of another store
and all other scopes there. -/
def besideBinding (store : Store) (name : String) (value : Value) : Embedding where
  scope id := if id = Store.root then Store.root else id + (store.scopes.size - 1)
  identity number := number + store.identities
  around := none
  beside id := if id = Store.root then [(name, value)] else []
  printed := store.printed.toList
  rising {first second} less := by
    have later : second ≠ Store.root := Nat.ne_zero_of_lt less
    rw [if_neg later]
    split
    next start => exact Nat.lt_of_lt_of_le (start ▸ less) (Nat.le_add_right _ _)
    next => exact Nat.add_lt_add_right less _
  distinct same := Nat.add_right_cancel same
  outside _ := by simp

variable {store : Store} {name : String} {value : Value}

/-- Only the name itself is hidden. -/
theorem visible_besideBinding {other : String} (distinct : other ≠ name) :
    (besideBinding store name value).Visible other := by
  intro id pair member
  simp only [besideBinding] at member
  split at member
  · rw [List.mem_singleton.mp member]
    exact distinct.symm
  · cases member

/-- The empty store stands in one whose root scope binds one name. -/
theorem stands_besideBinding (binds : store.scopes[Store.root]? = some ⟨none, [(name, value)]⟩) :
    (besideBinding store name value).Stands .initial store where
  scopes id := by
    have inside : 0 < store.scopes.size := (Array.getElem?_eq_some_iff.mp binds).1
    cases id with
    | zero => simpa [besideBinding, image, Store.initial, Store.root] using binds
    | succ id =>
      have outside : store.scopes.size ≤ id + 1 + (store.scopes.size - 1) := by omega
      simp [besideBinding, Store.initial, Store.root, outside]
  around id around := by cases around
  nested found encloses := by
    rw [Store.eq_of_initial found] at encloses
    cases encloses
  admitted := .initial
  nextScope more := by
    have inside : 0 < store.scopes.size := (Array.getElem?_eq_some_iff.mp binds).1
    have fresh : 1 + more ≠ Store.root := Nat.ne_of_gt (Nat.add_pos_left Nat.one_pos more)
    show (if 1 + more = Store.root then Store.root else 1 + more + (store.scopes.size - 1)) = _
    rw [if_neg fresh, Nat.add_right_comm, Nat.add_sub_cancel' inside]
  nextIdentity more := by simp [besideBinding, Store.initial, Nat.add_comm]
  bare id within := by
    have fresh : id ≠ Store.root := Nat.ne_of_gt within
    simp [besideBinding, fresh]
  printed := by simp [besideBinding, Store.initial]

end Embedding

/-- A fault is seen as a fault. -/
theorem mapError_halted_seen (result : Except Fault Value) :
    (result.mapError Failure.halted).map Value.seen =
      (result.map Value.seen).mapError Failure.halted := by
  cases result <;> rfl

/-! ### Main statement -/

/-- **A name that a program does not use does not matter.** For a text that is a program, a name
that no token for a name in it spells (it may be the name of a builtin), any value, and any store
whose root scope binds that name to the value and no other: within every limit, the program runs
there as on the empty store. Its result is seen as the same value or is the same fault, it prints the
same after what was printed before, and the root scope binds the name to the value still, and besides
it the same names to values seen as the same. -/
theorem run_unused_name {source : String} {program : Tree} (parsed : parse source = .ok program)
    {name : String}
    (unused : ∀ token ∈ program.tokens, token.kind = .identifier → token.text ≠ name)
    {store : Store} {value : Value}
    (binds : store.scopes[Store.root]? = some ⟨none, [(name, value)]⟩) (limit : Nat) :
    let alone := runWithin limit source Store.root .initial
    let beside := runWithin limit source Store.root store
    beside.1.result.map Value.seen = alone.1.result.map Value.seen ∧
      beside.2.printed = store.printed ++ alone.2.printed ∧
      ∃ others, beside.2.bindings Store.root = (name, value) :: others ∧
        Scope.seenBindings others = Scope.seenBindings (alone.2.bindings Store.root) := by
  intro alone beside
  obtain ⟨embedding, same⟩ : ∃ embedding, embedding = Embedding.besideBinding store name value :=
    ⟨_, rfl⟩
  have stands : embedding.Stands .initial store := same ▸ Embedding.stands_besideBinding binds
  have shaped : program.Shaped embedding.Reads .program := by
    refine (parse_shaped parsed).of_forall_tokens fun token member _ kind => ?_
    rw [same]
    exact Embedding.visible_besideBinding (unused token member kind)
  have inside : Store.root < Store.initial.scopes.size := by decide
  have kept := Embedding.evaluate_matches limit stands shaped inside
  have root : embedding.scope Store.root = Store.root := by
    rw [same]
    rfl
  rw [root] at kept
  have ran : alone = _ := runWithin_of_parse parsed limit Store.root .initial
  have ranBeside : beside = _ := runWithin_of_parse parsed limit Store.root store
  rw [ran, ranBeside]
  refine ⟨?_, ?_, ?_⟩
  · have seen : ∀ {first second}, embedding.Sends
        ((evaluate limit program Store.root).runFrom .initial).2.scopes.size first second →
          second.seen = first.seen := by
      rintro first second ⟨rfl, -⟩
      exact Embedding.seen_value first
    rw [mapError_halted_seen, mapError_halted_seen, kept.results.map_eq seen]
  · rw [← Array.toList_inj, Array.toList_append, kept.stands.printed, same]
    rfl
  · have bound := kept.stands.bindings (Nat.lt_of_lt_of_le inside kept.grows)
    rw [root, same] at bound
    refine ⟨_, bound, ?_⟩
    simp [Scope.seenBindings]

/-- A builtin's name, bound to a number, does not matter to a program that calls another builtin
from a function. -/
theorem run_unused_name_builtin :
    let source := "let f = fn(x) \x7b puts(x); x \x7d; f(1)"
    let store := Store.initial.bind Store.root "len" (.integer 7)
    ∃ program, parse source = .ok program ∧
      (∀ token ∈ program.tokens, token.kind = .identifier → token.text ≠ "len") ∧
      store.scopes[Store.root]? = some ⟨none, [("len", .integer 7)]⟩ ∧
      (runWithin 9 source Store.root store).1.result.map Value.seen =
        (runWithin 9 source Store.root .initial).1.result.map Value.seen ∧
      (runWithin 9 source Store.root store).2.printed = #["1"] ∧
      ∃ others, (runWithin 9 source Store.root store).2.bindings Store.root =
        ("len", .integer 7) :: others := by
  intro source store
  have accepted : ∃ program, parse "let f = fn(x) \x7b puts(x); x \x7d; f(1)" = .ok program :=
    ⟨_, rfl⟩
  obtain ⟨program, accepted⟩ := accepted
  have accepted : parse source = .ok program := accepted
  have names : (parse source).toOption.map (fun program =>
      (program.tokens.filter fun token => token.kind == .identifier).map Token.text) =
        some ["f", "x", "puts", "x", "x", "f"] := by decide +kernel
  rw [accepted] at names
  have unused : ∀ token ∈ program.tokens, token.kind = .identifier → token.text ≠ "len" := by
    intro token member kind same
    have among : token.text ∈ ["f", "x", "puts", "x", "x", "f"] := by
      rw [← Option.some.inj names]
      exact List.mem_map.mpr ⟨token, List.mem_filter.mpr ⟨member, by simp [kind]⟩, rfl⟩
    simp [same] at among
  have binds : store.scopes[Store.root]? = some ⟨none, [("len", .integer 7)]⟩ := rfl
  have said : (runWithin 9 source Store.root .initial).2.printed = #["1"] := by decide +kernel
  obtain ⟨results, printed, others, bound, -⟩ := run_unused_name accepted unused binds 9
  exact ⟨program, accepted, unused, binds, results, by rw [printed, said]; rfl, others, bound⟩

end Scriptlet
