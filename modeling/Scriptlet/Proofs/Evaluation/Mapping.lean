/-
**The program that maps is map.**

* `Application`: a callee applied to one argument, with the store before it, its value, and the store
  after it.
* `Maps`: a callee is applied to elements in turn, each time once, until one application yields an
  error.

Main statements: `Mapping.Frame.exists_maps`, by induction on the elements, what the function that
goes through the array does; and `elements_mapped`, what `map` does.
-/
import Scriptlet.Proofs.Evaluation.MapProgram

namespace Scriptlet

/-- A signal is an error or a returned operand. -/
theorem Value.isSignal_eq (value : Value) :
    value.isSignal = (value.isError || value.isReturned) := by
  cases value <;> rfl

/-- A callee is applied to one argument. -/
structure Application where
  argument : Value
  before : Store
  value : Value
  after : Store

namespace Application

/-- The application yields the value, within some limit. -/
def Occurs (callee : Value) (one : Application) : Prop :=
  ∃ limit, (apply limit callee [one.argument]).runFrom one.before = (.ok one.value, one.after)

/-- The lines that the application prints. -/
def written (one : Application) : List String :=
  one.after.printed.toList.drop one.before.printed.size

variable {callee : Value} {one : Application}

theorem Occurs.kept (occurs : one.Occurs callee) : one.before.Kept one.after := by
  obtain ⟨limit, ran⟩ := occurs
  have kept := apply_kept limit callee [one.argument] one.before
  rwa [ran] at kept

/-- What the application prints follows what has been printed. -/
theorem Occurs.printed (occurs : one.Occurs callee) :
    one.after.printed.toList = one.before.printed.toList ++ one.written := by
  obtain ⟨limit, ran⟩ := occurs
  have grows := growth_isOpen.apply_moves limit callee [one.argument] one.before
  rw [ran] at grows
  obtain ⟨more, added⟩ : one.before.printed.toList <+: one.after.printed.toList := grows
  rw [written, ← added, ← Array.length_toList, List.drop_left]

end Application

/-- A store before something is done next: nothing has been printed since. -/
structure Store.Readied (store before : Store) : Prop extends store.Kept before where
  printed : before.printed = store.printed

/-- **A callee is applied to elements in turn**, to each of them once, until one application yields an
error, which then is the result; otherwise the result is a new array of all values. Before each
application nothing is printed and all scopes stay; after an error nothing is done. A fault is one of
an application for which at least so many levels are left. -/
inductive Maps (callee : Value) (least : Nat) :
    List Value → List Value → Store → List Application → Except Fault Value × Store → Prop
  | done {values : List Value} {store after : Store} {identity : Nat} : store.Readied after →
      store.identities ≤ identity → identity < after.identities →
      Maps callee least [] values store [] (.ok (.array identity values), after)
  | next {one : Application} {elements values : List Value} {store : Store}
      {applications : List Application} {ended : Except Fault Value × Store} :
      store.Readied one.before → one.Occurs callee → one.value.isError = false →
      Maps callee least elements (values ++ [one.value]) one.after applications ended →
      Maps callee least (one.argument :: elements) values store (one :: applications) ended
  | error {one : Application} {elements values : List Value} {store : Store} :
      store.Readied one.before → one.Occurs callee → one.value.isError = true →
      Maps callee least (one.argument :: elements) values store [one] (.ok one.value, one.after)
  | fault {argument : Value} {elements values : List Value} {store before after : Store}
      {limit : Nat} {fault : Fault} : store.Readied before → least ≤ limit →
      (apply limit callee [argument]).runFrom before = (.error fault, after) →
      Maps callee least (argument :: elements) values store [] (.error fault, after)

namespace Maps

variable {callee result : Value} {least : Nat} {elements values : List Value} {store after : Store}
  {applications : List Application} {ended : Except Fault Value × Store}

/-- All scopes stay. -/
theorem kept (maps : Maps callee least elements values store applications ended) :
    store.Kept ended.2 := by
  induction maps with
  | done readied => exact readied.toKept
  | next readied occurs _ _ ih => exact (readied.toKept.trans occurs.kept).trans ih
  | error readied occurs _ => exact readied.toKept.trans occurs.kept
  | @fault argument _ _ _ before _ limit _ readied _ ran =>
    have kept := apply_kept limit callee [argument] before
    rw [ran] at kept
    exact readied.toKept.trans kept

/-- **What is printed is what the applications print**, in turn. -/
theorem printed (maps : Maps callee least elements values store applications (.ok result, after)) :
    after.printed.toList = store.printed.toList ++ applications.flatMap Application.written := by
  generalize same : (Except.ok result, after) = ended at maps
  induction maps with
  | done readied =>
    cases same
    rw [readied.printed, List.flatMap_nil, List.append_nil]
  | next readied occurs _ _ ih =>
    rw [ih same, occurs.printed, readied.printed, List.flatMap_cons, List.append_assoc]
  | error readied occurs _ =>
    cases same
    rw [occurs.printed, readied.printed, List.flatMap_singleton]
  | fault => cases same

/-- **Either the callee is applied to all elements, and the result is an array of the values, or its
first error is the result**, and the callee is not applied to the elements after it. -/
theorem result_eq
    (maps : Maps callee least elements values store applications (.ok result, after)) :
    (applications.map Application.argument = elements ∧
        (∀ one ∈ applications, one.value.isError = false) ∧
        ∃ identity, store.identities ≤ identity ∧
          result = .array identity (values ++ applications.map Application.value)) ∨
      ∃ before one others, applications = before ++ [one] ∧
        elements = applications.map Application.argument ++ others ∧
        (∀ other ∈ before, other.value.isError = false) ∧ one.value.isError = true ∧
        result = one.value ∧ after = one.after := by
  generalize same : (Except.ok result, after) = ended at maps
  induction maps with
  | @done values _ _ identity _ newer _ =>
    cases same
    refine Or.inl ⟨rfl, List.forall_mem_nil _, identity, newer, ?_⟩
    rw [List.map_nil, List.append_nil]
  | @next one _ _ _ applications _ readied occurs proper _ ih =>
    rcases ih same with ⟨all, none, identity, newer, array⟩ |
      ⟨before, last, others, split, first, none, isError, ends⟩
    · refine Or.inl ⟨congrArg _ all, List.forall_mem_cons.mpr ⟨proper, none⟩, identity, ?_, ?_⟩
      · exact Nat.le_trans (readied.toKept.trans occurs.kept).identities newer
      · rw [array, List.map_cons, List.append_assoc, List.singleton_append]
    · refine Or.inr ⟨one :: before, last, others, by rw [split, List.cons_append], ?_,
        List.forall_mem_cons.mpr ⟨proper, none⟩, isError, ends⟩
      rw [first, List.map_cons, List.cons_append]
  | @error one elements _ _ _ _ isError =>
    cases same
    exact Or.inr ⟨[], one, elements, rfl, rfl, List.forall_mem_nil _, isError, rfl, rfl⟩
  | fault => cases same

/-- A callee that yields a value for every element lets it end in a value. -/
theorem exists_ok (maps : Maps callee least elements values store applications ended)
    (yields : ∀ element ∈ elements, ∀ limit before, least ≤ limit → ∃ value after,
      (apply limit callee [element]).runFrom before = (.ok value, after)) :
    ∃ result after, ended = (.ok result, after) := by
  induction maps with
  | done | error => exact ⟨_, _, rfl⟩
  | next _ _ _ _ ih => exact ih (List.forall_mem_cons.mp yields).2
  | @fault element _ _ _ before _ limit _ _ enough ran =>
    obtain ⟨value, after, ended⟩ := yields element List.mem_cons_self limit before enough
    cases ran.symm.trans ended

/-- The result is an array or an error, and is passed on by what leaves these as they are. -/
theorem map_eq (maps : Maps callee least elements values store applications ended)
    {change : Value → Value} (array : ∀ identity elements, change (.array identity elements) =
      .array identity elements) (error : ∀ value, value.isError = true → change value = value) :
    ended.1.map change = ended.1 := by
  induction maps with
  | done => exact congrArg Except.ok (array _ _)
  | fault => rfl
  | next _ _ _ _ ih => exact ih
  | error _ _ isError => exact congrArg Except.ok (error _ isError)

/-- A call passes the result on. -/
theorem map_unwrap (maps : Maps callee least elements values store applications ended) :
    ended.1.map Value.unwrap = ended.1 := by
  refine maps.map_eq (fun _ _ => rfl) fun value isError => ?_
  cases value <;> first | rfl | cases isError

/-- So does a call whose body ends in a conditional. -/
theorem passed_eq (maps : Maps callee least elements values store applications ended) :
    Mapping.Frame.passed ended = ended := by
  have orNull : ended.1.map Value.orNull = ended.1 := by
    refine maps.map_eq (fun _ _ => rfl) fun value isError => ?_
    cases value <;> first | rfl | cases isError
  rw [Mapping.Frame.passed, orNull, maps.map_unwrap]

end Maps

/-! ### Going through the array -/

/-- There are no signals on the scope of a call if there are none among what it is given. -/
theorem Store.SignalFree.called {store : Store} (clean : store.SignalFree) (outer : ScopeId)
    {bindings : List (String × Value)} (each : ∀ pair ∈ bindings, pair.2.SignalFree) :
    (store.called outer bindings).SignalFree := by
  intro id scope found pair member
  simp only [Store.called, Array.getElem?_push] at found
  split at found
  · cases found
    exact each pair member
  · exact clean id scope found pair member

namespace Mapping

namespace Frame

variable {frame : Frame}

/-- An array without signals. -/
theorem signalFree_array {identity : Nat} {elements : List Value}
    (each : ∀ element ∈ elements, element.SignalFree) :
    (Value.array identity elements).SignalFree :=
  .array rfl each

/-- The store in which the callee is applied. -/
theorem readied_ready (frame : Frame) (items accumulated : Value) (store : Store) :
    store.Readied (frame.ready items accumulated store) where
  toKept := Store.kept_called.trans (Store.kept_identify _)
  printed := rfl

/-- What the function that goes through the array is called with: what is left of the elements, and
the values so far in an array that is newer than the last application. -/
structure Goes (frame : Frame) (origin : Store) (identity last : Nat)
    (elements values : List Value) (store : Store) : Prop where
  stands : frame.Stands store
  clean : store.SignalFree
  readied : origin.Readied store
  owns : frame.Owns identity
  newer : frame.identity ≤ last
  newest : origin.identities ≤ last
  made : last < store.identities
  elements : ∀ element ∈ elements, element.SignalFree
  values : ∀ value ∈ values, value.SignalFree

namespace Goes

variable {origin store after : Store} {identity last : Nat} {element value : Value}
  {elements values : List Value}

/-- The store in which the callee is applied has no signals. -/
theorem signalFree_ready
    (goes : frame.Goes origin identity last (element :: elements) values store) :
    (frame.ready (.array identity (element :: elements)) (.array last values) store).SignalFree := by
  refine Store.SignalFree.called goes.clean frame.id ?_
  exact List.forall_mem_cons.mpr ⟨signalFree_array goes.elements,
    List.forall_mem_singleton.mpr (signalFree_array goes.values)⟩

/-- **After an application that yields a value, it goes on with the rest**, and with the values so far
and this one. -/
theorem next (goes : frame.Goes origin identity last (element :: elements) values store) {limit : Nat}
    (ran : (apply limit frame.callee [element]).runFrom
      (frame.ready (.array identity (element :: elements)) (.array last values) store) =
        (.ok value, after)) (calm : value.isSignal = false) :
    frame.Goes after store.identities after.identities elements (values ++ [value])
      after.identify.2 := by
  have kept := apply_kept limit frame.callee [element]
    (frame.ready (.array identity (element :: elements)) (.array last values) store)
  obtain ⟨here, others⟩ := List.forall_mem_cons.mp goes.elements
  obtain ⟨clean, yields⟩ := apply_contained limit goes.signalFree_ready frame.callee
    (List.forall_mem_singleton.mpr here)
  rw [ran] at kept clean yields
  have onward : store.Kept after := (frame.readied_ready _ _ store).toKept.trans kept
  have stands := goes.stands.kept onward
  exact {
    stands := stands.kept after.kept_identify
    clean := clean
    readied := ⟨after.kept_identify, rfl⟩
    owns := Or.inr (Nat.le_of_lt goes.stands.made)
    newer := Nat.le_of_lt stands.made
    newest := Nat.le_refl _
    made := Nat.lt_succ_self _
    elements := others
    values := List.forall_mem_append.mpr
      ⟨goes.values, List.forall_mem_singleton.mpr ((yields value rfl).2 calm)⟩ }

/-- So it begins, with the whole array and a new one. -/
theorem begun {store : Store} (fresh : frame.id = store.scopes.size)
    (newest : frame.identity = store.identities) (free : Free store frame.home)
    (clean : store.SignalFree) (each : ∀ element ∈ frame.elements, element.SignalFree)
    (calm : frame.callee.SignalFree) :
    frame.Goes store frame.given (store.identities + 1) frame.elements []
      (frame.begun store).identify.2 where
  stands := (frame.stands_begun fresh newest free).kept (Store.kept_identify _)
  clean := by
    refine Store.SignalFree.called clean frame.home ?_
    exact List.forall_mem_cons.mpr ⟨signalFree_array each, List.forall_mem_cons.mpr
      ⟨calm, List.forall_mem_singleton.mpr (.of_parts_eq_nil rfl rfl)⟩⟩
  readied := ⟨(frame.kept_begun store).trans (Store.kept_identify _), rfl⟩
  owns := Or.inl rfl
  newer := newest ▸ Nat.le_succ _
  newest := Nat.le_succ _
  made := Nat.lt_succ_self _
  elements := each
  values := List.forall_mem_nil _

end Goes

/-- **What the function that goes through the array does.** The callee is applied to the elements that
are left, in turn. However other callees are applied, it does the same as long as these applications
do. -/
theorem exists_maps {origin store : Store} {identity last least limit : Nat}
    {elements values : List Value} (goes : frame.Goes origin identity last elements values store)
    (enough : least + (6 * elements.length + 6) ≤ limit) :
    ∃ applications ended, Maps frame.callee least elements values origin applications ended ∧
      ∀ {evaluate' : Nat → Tree → ScopeId → Eval Value} {apply' : Nat → Value → List Value → Eval Value},
        frame.Runs evaluate' apply' → (∀ fault, ended.1 = .error fault → apply' = apply) →
        (∀ one ∈ applications, ∀ limit, (apply' limit frame.callee [one.argument]).runFrom one.before =
          (apply limit frame.callee [one.argument]).runFrom one.before) →
        (apply' limit frame.loop [.array identity elements, .array last values]).runFrom store =
          ended := by
  induction elements generalizing origin store identity last values limit with
  | nil =>
    obtain ⟨limit, rfl⟩ : ∃ fewer, limit = fewer + 6 := Nat.exists_eq_add_of_le' (by omega)
    refine ⟨[], _, .done ?_ goes.newest ?_, fun runs _ _ => runs.loop_nil goes.owns goes.stands⟩
    · exact ⟨goes.readied.toKept.trans Store.kept_called, goes.readied.printed⟩
    · exact goes.made
  | cons element elements ih =>
    obtain ⟨limit, rfl⟩ : ∃ fewer, limit = fewer + 10 :=
      Nat.exists_eq_add_of_le' (by rw [List.length_cons] at enough; omega)
    have owns' : frame.Owns last := Or.inr goes.newer
    obtain ⟨here, -⟩ := List.forall_mem_cons.mp goes.elements
    have readied : origin.Readied
        (frame.ready (.array identity (element :: elements)) (.array last values) store) :=
      ⟨goes.readied.toKept.trans (frame.readied_ready _ _ store).toKept, goes.readied.printed⟩
    obtain ⟨⟨result, after⟩, ran⟩ : ∃ ended, (apply (limit + 2) frame.callee [element]).runFrom
      (frame.ready (.array identity (element :: elements)) (.array last values) store) = ended :=
      ⟨_, rfl⟩
    cases result with
    | error fault =>
      refine ⟨[], _, .fault readied ?_ ran, fun runs same _ => ?_⟩
      · rw [List.length_cons] at enough
        omega
      · exact runs.loop_fault goes.owns owns' here.here goes.stands (same fault rfl ▸ ran)
    | ok value =>
      let one : Application := ⟨element, frame.ready (.array identity (element :: elements))
        (.array last values) store, value, after⟩
      have occurs : one.Occurs frame.callee := ⟨limit + 2, ran⟩
      have yields := (apply_contained (limit + 2) goes.signalFree_ready frame.callee
        (List.forall_mem_singleton.mpr here)).2 value (congrArg Prod.fst ran)
      by_cases isError : value.isError = true
      · refine ⟨[one], _, @Maps.error _ _ one _ _ _ readied occurs isError, fun runs _ alike => ?_⟩
        exact runs.loop_error goes.owns owns' here.here goes.stands
          ((alike one List.mem_cons_self _).trans ran) isError
      · have calm : value.isSignal = false := by
          rw [Value.isSignal_eq, yields.1, Bool.or_false]
          simpa using isError
        obtain ⟨applications, ended, maps, follows⟩ := @ih _ _ _ _ (limit + 4) _ (goes.next ran calm)
          (by rw [List.length_cons] at enough; omega)
        refine ⟨one :: applications, ended,
          @Maps.next _ _ one _ _ _ _ _ readied occurs (by simpa using isError) maps,
          fun runs same alike => ?_⟩
        obtain ⟨first, others⟩ := List.forall_mem_cons.mp alike
        rw [runs.loop_value goes.owns owns' here.here goes.stands ((first _).trans ran) calm,
          follows runs same others, maps.passed_eq]

end Frame

/-! ### Calls of `map` -/

section Calls

variable {home : ScopeId} {body : Tree} {store : Store} {given : Nat} {elements : List Value}
  {callee : Value} (same : mapBody.SameUnplaced body) (clean : store.SignalFree)
  (free : Free store home) (each : ∀ element ∈ elements, element.SignalFree)
  (calm : callee.SignalFree) (identity : Nat)

include same clean free each calm

/-- **A call of `map` with enough levels to go** applies the callee to the elements in turn; and
whatever is watched for, it meets what is allowed if its own calls and these applications do. -/
theorem exists_maps_of_enough {limit : Nat} (enough : 6 * elements.length + 9 ≤ limit) :
    let map := Value.function identity ["arr", "f"] body home
    let arguments := [.array given elements, callee]
    ∃ applications ended,
      Maps callee (limit - (6 * elements.length + 9)) elements [] store applications ended ∧
      (apply limit map arguments).runFrom store = ended ∧
      ∀ allowed, (∀ callee arguments now,
          OwnCall given store.identities callee arguments → allowed callee arguments now) →
        allowed map arguments store → (∀ fault, ended.1 ≠ .error fault) →
        (∀ one ∈ applications, ∀ limit,
          AlwaysApplying (Applying allowed) limit callee [one.argument] one.before) →
        AlwaysApplying (Applying allowed) limit map arguments store := by
  intro map arguments
  obtain ⟨token, parameters, loop, first, rfl, text, named, same, begins⟩ := exists_parts same
  let frame : Frame := ⟨home, store.scopes.size, given, elements, callee, calm.here,
    store.identities, loop, same⟩
  obtain ⟨limit, rfl⟩ : ∃ fewer, limit = fewer + 4 := Nat.exists_eq_add_of_le' (by omega)
  have goes : frame.Goes store given (store.identities + 1) elements [] _ :=
    .begun rfl rfl free clean each calm
  obtain ⟨applications, ended, maps, follows⟩ := @Frame.exists_maps frame _ _ _ _
    (limit + 4 - (6 * elements.length + 9)) (limit + 1) _ _ goes (by omega)
  have runs : ∀ {evaluate' : Nat → Tree → ScopeId → Eval Value}
      {apply' : Nat → Value → List Value → Eval Value}, frame.Runs evaluate' apply' →
      (∀ fault, ended.1 = .error fault → apply' = apply) →
      (∀ one ∈ applications, ∀ limit, (apply' limit callee [one.argument]).runFrom one.before =
        (apply limit callee [one.argument]).runFrom one.before) →
      (Eval.call (Value.inspectWithin (limit + 4)) (evaluate' (limit + 4)) map arguments).runFrom
        store = ended := by
    intro evaluate' apply' runs same alike
    have ran := runs.map rfl rfl free text named begins limit identity
    rw [Eval.runFrom_return, follows runs same alike, maps.map_unwrap] at ran
    exact ran
  refine ⟨applications, ended, maps, ?_, ?_⟩
  · exact runs ⟨levels_evaluate, fun _ _ _ _ => rfl⟩ (fun _ _ => rfl) fun _ _ _ => rfl
  · intro allowed own here yields always alarm
    have owned : ∀ limit {callee arguments}, OwnCall given store.identities callee arguments →
        applyWatched (Applying allowed) alarm limit callee arguments =
          Eval.call (Value.inspectWithin limit) (evaluateWatched (Applying allowed) alarm limit)
            callee arguments := by
      intro limit callee arguments mine
      have passes : Eval.watch (Applying allowed) alarm (.applied callee arguments) = pure () :=
        Eval.watch_of_forall fun now => own callee arguments now mine
      rw [applyWatched, Eval.callWatched, passes, pure_bind]
    rw [applyWatched, Eval.callWatched,
      Eval.runFrom_bind_of_ok (Eval.runFrom_watch_of_permits here),
      runs ⟨levels_watched allowed alarm, owned⟩ (fun fault faulted => absurd faulted (yields fault))
        fun one member limit => always one member limit alarm]
    exact (runs ⟨levels_evaluate, fun _ _ _ _ => rfl⟩ (fun _ _ => rfl) fun _ _ _ => rfl).symm

/-- **A call of `map` applies the callee to the elements in turn**, unless it ends beyond the limit
because it has not enough levels to go. -/
theorem exists_maps (limit : Nat) :
    let map := Value.function identity ["arr", "f"] body home
    let arguments := [.array given elements, callee]
    let ended := (apply limit map arguments).runFrom store
    (limit < 6 * elements.length + 9 ∧ ended.1 = .error .nestingTooDeep) ∨
    ∃ applications,
      Maps callee (limit - (6 * elements.length + 9)) elements [] store applications ended ∧
      ∀ allowed, (∀ callee arguments now,
          OwnCall given store.identities callee arguments → allowed callee arguments now) →
        allowed map arguments store → (∀ fault, ended.1 ≠ .error fault) →
        (∀ one ∈ applications, ∀ limit,
          AlwaysApplying (Applying allowed) limit callee [one.argument] one.before) →
        AlwaysApplying (Applying allowed) limit map arguments store := by
  intro map arguments ended
  have larger := @exists_maps_of_enough home body store given elements callee same clean free each calm
    identity
  by_cases enough : 6 * elements.length + 9 ≤ limit
  · obtain ⟨applications, _, maps, rfl, always⟩ := larger enough
    exact Or.inr ⟨applications, maps, always⟩
  · -- the call does what it does with enough levels, or it ends beyond the limit
    have few := Nat.lt_of_not_le enough
    obtain ⟨applications, _, maps, rfl, always⟩ := larger (Nat.le_refl _)
    rcases (apply_extends (Nat.le_of_lt few) map arguments).ends store with ran | ⟨deep, -⟩
    · refine Or.inr ⟨applications, ?_, fun allowed own here yields each => ?_⟩
      · rw [Nat.sub_self, ran] at maps
        rwa [Nat.sub_eq_zero_of_le (Nat.le_of_lt few)]
      · rw [ran] at always
        obtain ⟨value, ran'⟩ : ∃ value, ended.1 = .ok value := by
          cases result : ended.1 with
          | ok value => exact ⟨value, rfl⟩
          | error fault => exact absurd result (yields fault)
        exact AlwaysApplying.of_larger (Nat.le_of_lt few) (always allowed own here yields each)
          (show ended = (.ok value, ended.2) by rw [← ran'])
    · exact Or.inl ⟨few, deep⟩

end Calls

end Mapping

/-! ### Main statement -/

/-- **`map` is map.** A source whose program is `Mapping.program`, whatever its places, binds a function
in a fresh root. Where no name of the builtins is bound on the root, the application of that function
to an array and a callee, within any limit:

* applies the callee to the elements in turn, until one application yields an error; only if its limit
  is too low for the number of elements, it may end beyond the limit instead;
* so it yields a new array of all values, or the first error, which is the last that is done; it
  prints what the applications print, and leaves all scopes as they were, with the arrays in them;
* and it meets no other application than its own and those met in these.

Values that programs hold have no signals in them, and functions and builtins consist of no values. -/
theorem elements_mapped {source : String} {tree : Tree} (accepted : parse source = .ok tree)
    (written : Mapping.program.SameUnplaced tree) :
    ∃ body, let map := Value.function 0 ["arr", "f"] body Store.root
      (∀ limit, 3 ≤ limit → runWithin limit source Store.root .initial =
        (⟨some tree, .ok .nothing⟩, Store.initial.identify.2.bind Store.root "map" map)) ∧
      ∀ store given elements callee, store.SignalFree → Mapping.Free store Store.root →
        (∀ element ∈ elements, element.SignalFree) → callee.SignalFree → ∀ limit,
        let arguments := [.array given elements, callee]
        let ended := (apply limit map arguments).runFrom store
        (limit < 6 * elements.length + 9 ∧ ended.1 = .error .nestingTooDeep) ∨
        ∃ applications,
          Maps callee (limit - (6 * elements.length + 9)) elements [] store applications ended ∧
          ∀ result after, ended = (.ok result, after) →
            ((applications.map Application.argument = elements ∧
                (∀ one ∈ applications, one.value.isError = false) ∧
                ∃ identity, store.identities ≤ identity ∧
                  result = .array identity (applications.map Application.value)) ∨
              ∃ before one others, applications = before ++ [one] ∧
                elements = applications.map Application.argument ++ others ∧
                (∀ other ∈ before, other.value.isError = false) ∧ one.value.isError = true ∧
                result = one.value ∧ after = one.after) ∧
            after.printed.toList =
              store.printed.toList ++ applications.flatMap Application.written ∧
            (∀ id < store.scopes.size, after.scopes[id]? = store.scopes[id]?) ∧
            ∀ allowed, (∀ callee arguments now,
                Mapping.OwnCall given store.identities callee arguments →
                  allowed callee arguments now) →
              allowed map arguments store →
              (∀ one ∈ applications, ∀ limit,
                AlwaysApplying (Applying allowed) limit callee [one.argument] one.before) →
              AlwaysApplying (Applying allowed) limit map arguments store := by
  obtain ⟨body, same, bound⟩ := Mapping.runFrom_program levels_evaluate written
  refine ⟨body, fun limit enough => ?_, ?_⟩
  · obtain ⟨fewer, rfl⟩ := Nat.exists_eq_add_of_le' enough
    rw [runWithin_of_parse accepted, bound]
    rfl
  · intro store given elements callee clean free each calm limit arguments ended
    rcases Mapping.exists_maps same clean free each calm 0 limit with deep | ⟨applications, maps, always⟩
    · exact Or.inl deep
    · refine Or.inr ⟨applications, maps, fun result after ran => ?_⟩
      have maps : Maps callee _ elements [] store applications ended := maps
      rw [ran] at maps
      refine ⟨maps.result_eq, maps.printed, maps.kept.scopes, fun allowed own here each => ?_⟩
      refine always allowed own here (fun fault faulted => ?_) each
      rw [show (apply limit _ _).runFrom store = (.ok result, after) from ran] at faulted
      cases faulted

/-- The lengths of a string, of an integer, which has none, and of what comes after it. -/
theorem elements_mapped_lengths :
    ∃ tree body, parse Mapping.text = .ok tree ∧
      let map := Value.function 0 ["arr", "f"] body Store.root
      let store := (Store.initial.identify.2.bind Store.root "map" map).identify.2
      let elements := [.string 7 "ab", .integer 5, .null]
      ∃ applications result after,
        (apply 50 map [.array 1 elements, .builtin .len]).runFrom store = (.ok result, after) ∧
        Maps (.builtin .len) 23 elements [] store applications (.ok result, after) ∧
        ((∃ identity, result = .array identity (applications.map Application.value)) ∨
          ∃ before one, applications = before ++ [one] ∧ one.value.isError = true ∧
            result = one.value) := by
  obtain ⟨tree, accepted, written⟩ := Mapping.exists_parse_text
  obtain ⟨body, -, mapped⟩ := elements_mapped accepted written
  refine ⟨tree, body, accepted, ?_⟩
  intro map store elements
  have plain : ∀ element ∈ elements, element.SignalFree := by
    simp only [elements, List.forall_mem_cons]
    exact ⟨.of_parts_eq_nil rfl rfl, .of_parts_eq_nil rfl rfl, .of_parts_eq_nil rfl rfl,
      List.forall_mem_nil _⟩
  have clean : store.SignalFree :=
    Store.Holds.initial.bind Store.root "map" (Value.SignalFree.of_parts_eq_nil rfl rfl)
  have free : Mapping.Free store Store.root := ⟨[("map", map)], rfl, fun builtin _ => by
    cases builtin <;> rfl⟩
  rcases mapped store 1 elements (.builtin .len) clean free plain (.of_parts_eq_nil rfl rfl) 50 with
    ⟨few, -⟩ | ⟨applications, maps, rest⟩
  · exact absurd few (by decide)
  · obtain ⟨result, after, ended⟩ := maps.exists_ok (by
      simp only [elements, List.forall_mem_cons]
      exact ⟨fun _ _ _ => ⟨_, _, rfl⟩, fun _ _ _ => ⟨_, _, rfl⟩, fun _ _ _ => ⟨_, _, rfl⟩,
        List.forall_mem_nil _⟩)
    refine ⟨applications, result, after, ended, ended ▸ maps, ?_⟩
    rcases (rest result after ended).1 with ⟨-, -, identity, -, array⟩ |
      ⟨before, one, others, split, -, -, isError, last, -⟩
    · exact Or.inl ⟨identity, array⟩
    · exact Or.inr ⟨before, one, split, isError, last⟩

end Scriptlet
