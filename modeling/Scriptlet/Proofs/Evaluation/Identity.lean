/-
**Equality is sound along every run.**

* `Moment.Recorded`: all values that are bound, yielded or applied are listed in a ledger among the
  values that have got an identity so far; a value that is made just then differs from all that are
  listed before.
* `recorded`: the account of what every identity stands for.

Main statement: `equality_sound`. Whatever sources are run in turn from an empty store, there is one
ledger in which all values that are met at any moment are listed; so `==` and `!=` are sound among
all of them, and what literals, joined strings, `push` and `rest` make differs from all that was
there before.
-/
import Scriptlet.Proofs.Evaluation.Accounted
import Scriptlet.Proofs.Reader.Soundness
import Scriptlet.Proofs.Value.Listed

namespace Scriptlet

/-- A value that got the last identity given out, and differs from every value listed before. -/
def Value.NewIn (ledger : List Value) (value : Value) (store : Store) : Prop :=
  ∃ identity, value.identity? = some identity ∧ store.identities = identity + 1 ∧
    ∀ old : Value, old.Listed (ledger.take identity) → value.Differs old

/-- What is bound, yielded or applied is listed among the values that have got an identity so far.
What a tree makes is new, and so is an array that `push` or `rest` is about to make. -/
def Moment.Recorded (ledger : List Value) (moment : Moment) (store : Store) : Prop :=
  store.Holds (Value.Listed (ledger.take store.identities)) ∧
    match moment with
    | .entered _ _ => True
    | .yielded tree value =>
      (value.Listed (ledger.take store.identities) ∨ value = .nothing) ∧
        (tree.Makes value → value.NewIn ledger store)
    | .applied callee arguments =>
      callee.Listed (ledger.take store.identities) ∧
        (∀ argument ∈ arguments, argument.Listed (ledger.take store.identities)) ∧
        ∀ inspect builtin made after, callee = .builtin builtin →
          builtin = .push ∨ builtin = .rest →
          (Eval.callBuiltin inspect builtin arguments).runFrom store = (.ok made, after) →
          made.tag? = some .array → made.NewIn ledger after

/-- What every identity given out stands for. -/
def recorded : Account where
  Known := List Value
  later := List.IsPrefix
  counts ledger identities := ledger.length = identities
  holds ledger value :=
    value.Throughout fun inner => inner.Entered ledger ∧ inner.Formed Token.InRange
  token := Token.InRange
  assumes _ _ := True
  refl := List.prefix_refl
  trans := List.IsPrefix.trans
  holds_later onward held := held.mono fun _ both => ⟨both.1.mono onward, both.2⟩
  part held member := held.part _ member
  formed held := held.here.2
  null := .of_parts_eq_nil ⟨.of_identity (by simp) rfl, trivial⟩ rfl
  boolean _ := .of_parts_eq_nil ⟨.of_identity (by simp) rfl, trivial⟩ rfl
  builtin _ := .of_parts_eq_nil ⟨.of_identity (by simp) rfl, trivial⟩ rfl
  wrapped _ := .of_parts_eq_nil ⟨.of_identity (by simp) rfl, trivial⟩ rfl
  literal _ _ _ := .of_parts_eq_nil ⟨.of_identity (by simp) rfl, trivial⟩ rfl
  measured _ _ := .of_parts_eq_nil ⟨.of_identity (by simp) rfl, trivial⟩ rfl
  make := fun {ledger identity value} counted own held formed => by
    have onward : ledger <+: ledger ++ [value] := List.prefix_append ledger [value]
    refine ⟨ledger ++ [value], onward, by simp [counted],
      .intro ⟨⟨?_, ?_⟩, formed⟩ fun part member =>
        (held part member).mono fun _ both => ⟨both.1.mono onward, both.2⟩⟩
    · rintro rfl
      cases own
    · intro other own'
      obtain rfl := Option.some.inj (own.symm.trans own')
      simp [← counted]

namespace recorded

variable {ledger last : List Value} {store : Store} {value : Value}

theorem listed (held : recorded.holds ledger value) : value.Listed ledger :=
  held.mono fun _ both => both.1

/-- The identities given out by now are those that the ledger had by now. -/
theorem take_identities (good : recorded.Good ledger store) (onward : ledger <+: last) :
    last.take store.identities = ledger := by
  have counted : ledger.length = store.identities := good.counts
  rw [← counted]
  exact (List.prefix_iff_eq_take.mp onward).symm

/-- What is bound is listed. -/
theorem holds_listed (good : recorded.Good ledger store) (onward : ledger <+: last) :
    store.Holds (Value.Listed (last.take store.identities)) := by
  rw [take_identities good onward]
  exact good.holds.mono fun _ => listed

theorem listed_of_settles {role : Role} (settles : recorded.Settles role ledger value) :
    value.Listed ledger ∨ value = .nothing :=
  settles.imp listed And.left

/-- A value with the last identity is new. -/
theorem newIn (last : List Value) (good : recorded.Good ledger store)
    (newest : recorded.Newest ledger value) : value.NewIn last store := by
  obtain ⟨identity, own, counted⟩ := newest
  refine ⟨identity, own, good.counts.symm.trans counted, fun old listed => ?_⟩
  exact listed.differs own (List.length_take_le _ _)

end recorded

/-! ### Arrays made by builtins -/

namespace Eval

/-- An array that an evaluation yields gets the identity given out next. -/
def MakesArray (evaluation : Eval Value) : Prop :=
  ∀ store after made, evaluation.runFrom store = (.ok made, after) →
    made.tag? = some .array →
    made.identity? = some store.identities ∧ after.identities = store.identities + 1

namespace MakesArray

theorem identified {make : Nat → Value}
    (own : ∀ identity, (make identity).identity? = some identity) :
    MakesArray (identified make) := by
  intro store after made ran _
  cases ran
  exact ⟨own _, rfl⟩

theorem complain (complaint : Complaint) : MakesArray (complain complaint) :=
  identified fun _ => rfl

theorem null : MakesArray (pure .null) := by
  intro store after made ran array
  cases ran
  cases array

theorem complain_tagOf (value : Value) (complaint : Tag → Complaint) :
    MakesArray (do Eval.complain (complaint (← tagOf value))) := by
  unfold tagOf
  cases value.tag? with
  | none =>
    intro store after made ran
    cases ran
  | some tag => exact complain (complaint tag)

theorem withElements (builtin : Builtin) (value : Value) {use : List Value → Eval Value}
    (used : ∀ elements, MakesArray (use elements)) :
    MakesArray (withElements builtin value use) := by
  unfold Eval.withElements
  split
  · exact used _
  · exact complain_tagOf _ _

/-- What `push` and `rest` make has an identity of its own. -/
theorem callBuiltin (inspect : Value → Except Fault String) {builtin : Builtin}
    (makes : builtin = .push ∨ builtin = .rest) (arguments : List Value) :
    MakesArray (callBuiltin inspect builtin arguments) := by
  rcases makes with rfl | rfl
  · rcases arguments with _ | ⟨value, _ | ⟨item, _ | ⟨third, rest⟩⟩⟩
    case cons.cons.nil => exact withElements _ _ fun elements => identified fun _ => rfl
    all_goals exact complain _
  · rcases arguments with _ | ⟨value, _ | ⟨item, rest⟩⟩
    case cons.nil =>
      refine withElements _ _ fun elements => ?_
      cases elements with
      | nil => exact null
      | cons => exact identified fun _ => rfl
    all_goals exact complain _

end MakesArray

end Eval

/-- The moments that are accounted for are recorded in every longer ledger. -/
theorem recorded.recorded_of_allows {ledger last : List Value} (onward : ledger <+: last)
    {moment : Moment} {store : Store} (allowed : recorded.Allows ledger moment store) :
    moment.Recorded last store := by
  cases allowed with
  | entered _ _ good => exact ⟨holds_listed good onward, trivial⟩
  | yielded role good yields =>
    refine ⟨holds_listed good onward, ?_, fun makes => newIn last good (yields.2 makes)⟩
    rw [take_identities good onward]
    exact listed_of_settles yields.1
  | @applied _ _ arguments good callee held =>
    refine ⟨holds_listed good onward, ?_⟩
    rw [take_identities good onward]
    refine ⟨listed callee, fun argument member => listed (held argument member), ?_⟩
    rintro inspect builtin made after rfl makes ran array
    obtain ⟨own, counted⟩ := Eval.MakesArray.callBuiltin inspect makes arguments _ _ _ ran array
    exact ⟨store.identities, own, counted,
      fun old listed => listed.differs own (List.length_take_le _ _)⟩

/-- **Equality is sound along every run.** Let sources be run in turn on the root scope of an empty
store, within any limit. There is one ledger for all of them: at every moment of every program among
them, each value that is bound on any scope, yielded, or applied, however deep it lies in another,
is listed there among the values that have got an identity so far; and so are the result and what
is bound when the program has ended. A literal with an identity, a joined string, and an array that
`push` or `rest` makes differ from all values listed before. Among listed values, `==` is
reflexive, symmetric and transitive, `!=` yields the opposite, and values that are equal have the
same type and the same text. -/
theorem equality_sound (limit : Nat) (sources : List String) :
    ∃ ledger : List Value, (SoundEquality fun value => value.Listed ledger) ∧
      ∀ program store, RunsAmong limit .initial sources program store →
        AlwaysEvaluating (Moment.Recorded ledger) limit program Store.root store ∧
        let outcome := (evaluate limit program Store.root).runFrom store
        outcome.2.Holds (Value.Listed (ledger.take outcome.2.identities)) ∧
        ∀ value, outcome.1 = .ok value →
          value.Listed (ledger.take outcome.2.identities) ∨ value = .nothing := by
  have good : recorded.Good [] Store.initial := ⟨rfl, .initial⟩
  obtain ⟨ledger, -, each⟩ := recorded.kept_among (fun ledger => Moment.Recorded ledger)
    (fun onward => recorded.recorded_of_allows onward) parse_shaped limit good sources
    fun program store _ => alwaysEvaluating_true limit program Store.root store
  refine ⟨ledger, Value.Listed.soundEquality ledger, fun program store runs => ?_⟩
  obtain ⟨always, more, onward, goodAfter, settles⟩ := each program store runs
  refine ⟨always, recorded.holds_listed goodAfter onward, fun value result => ?_⟩
  rw [recorded.take_identities goodAfter onward]
  exact recorded.listed_of_settles (settles value result)

/-- An array bound to two names in one program, and one made from it in the next. -/
theorem equality_sound_aliases :
    let store := (runWithin 9 "let a = [1]; let b = a;" Store.root .initial).2
    let outcome := (runWithin 9 "[a == b, push(a, 2) != b]" Store.root store).1
    ∃ ledger : List Value, (SoundEquality fun value => value.Listed ledger) ∧
      (∃ program, parse "[a == b, push(a, 2) != b]" = .ok program ∧
        AlwaysEvaluating (Moment.Recorded ledger) 9 program Store.root store) ∧
      outcome.result.toOption.map (fun value => value.rendered.toOption) =
        some (some (some "[true, true]")) := by
  intro store outcome
  obtain ⟨program, accepted⟩ : ∃ program, parse "[a == b, push(a, 2) != b]" = .ok program :=
    ⟨_, rfl⟩
  obtain ⟨ledger, sound, each⟩ :=
    equality_sound 9 ["let a = [1]; let b = a;", "[a == b, push(a, 2) != b]"]
  have shown : outcome.result.toOption.map (fun value => value.rendered.toOption) =
      some (some (some "[true, true]")) := by decide +kernel
  exact ⟨ledger, sound, ⟨program, accepted, (each program store (.later (.here accepted))).1⟩,
    shown⟩

end Scriptlet
