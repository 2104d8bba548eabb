/-
**What an identity stands for.**

A ledger lists the values with an identity in the order in which they were made: the identity of
each is its place. The evaluation keeps no ledger; it is what is known of a run as a whole.

* `Value.Listed`: a value with an identity, and every such value in it, is the one that a ledger has
  at that place.
* `Value.Equals`, `Value.Differs`: the operators `==` and `!=` yield true.
* `SoundEquality`: the laws of these operators among values.

Main statements: listed values are the same only if they are equal (`Value.Listed.same_iff`), so the
operators are sound among them (`Value.Listed.soundEquality`); a value that is listed later differs
from all values listed before (`Value.Listed.differs`).
-/
import Scriptlet.Proofs.Evaluation.Terms
import Scriptlet.Proofs.Value.Held

namespace Scriptlet

namespace Value

/-- A value that is there, and is the one that a ledger has at its identity, if it has one. -/
def Entered (ledger : List Value) (value : Value) : Prop :=
  value ≠ nothing ∧ ∀ identity, value.identity? = some identity → ledger[identity]? = some value

/-- A value and all values in it are there, and are those that a ledger has at their identities. -/
def Listed (ledger : List Value) (value : Value) : Prop :=
  value.Throughout (Entered ledger)

/-- The operator `==` yields true. -/
def Equals (left right : Value) : Prop :=
  ∀ store, (Eval.applyBinary "==" left right).runFrom store = (.ok (.boolean true), store)

/-- The operator `!=` yields true. -/
def Differs (left right : Value) : Prop :=
  ∀ store, (Eval.applyBinary "!=" left right).runFrom store = (.ok (.boolean true), store)

end Value

/-- The laws of `==` and `!=` among values. -/
structure SoundEquality (among : Value → Prop) : Prop where
  /-- One of them yields true and the other one false, and neither changes anything. -/
  opposite : ∀ {left right}, among left → among right → ∃ truth : Bool, ∀ store,
    (Eval.applyBinary "==" left right).runFrom store = (.ok (.boolean truth), store) ∧
    (Eval.applyBinary "!=" left right).runFrom store = (.ok (.boolean !truth), store)
  refl : ∀ {value}, among value → value.Equals value
  symm : ∀ {left right}, among left → among right → left.Equals right → right.Equals left
  trans : ∀ {first second third}, among first → among second → among third →
    first.Equals second → second.Equals third → first.Equals third
  tag : ∀ {left right}, among left → among right → left.Equals right → left.tag? = right.tag?
  inspect : ∀ {left right}, among left → among right → left.Equals right →
    left.inspect = right.inspect
  boolean : ∀ left right : Bool, (Value.boolean left).Equals (.boolean right) ↔ left = right
  integer : ∀ left right : Int, (Value.integer left).Equals (.integer right) ↔ left = right

namespace Value

variable {left right : Value}

/-- Two values are the same if they are equal and have no identity, or have the same identity and
type. -/
theorem same_eq_true_iff : left.same right = true ↔ left.identity? = none ∧ left = right ∨
    ∃ identity, left.identity? = some identity ∧ right.identity? = some identity ∧
      left.tag? = right.tag? := by
  cases left <;> cases right <;> simp [same, identity?, tag?] <;> exact eq_comm

/-- The operators yield whether two values that are there are the same. -/
theorem applyBinary_same (here : left ≠ nothing) (there : right ≠ nothing) (store : Store) :
    (Eval.applyBinary "==" left right).runFrom store = (.ok (.boolean (left.same right)), store) ∧
    (Eval.applyBinary "!=" left right).runFrom store =
      (.ok (.boolean !left.same right), store) := by
  cases left with
  | nothing => exact absurd rfl here
  | _ =>
    cases right with
    | nothing => exact absurd rfl there
    | _ => exact ⟨rfl, rfl⟩

theorem equals_iff (here : left ≠ nothing) (there : right ≠ nothing) :
    left.Equals right ↔ left.same right = true := by
  constructor
  · intro equal
    have yielded := (applyBinary_same here there .initial).1.symm.trans (equal .initial)
    simpa using yielded
  · intro same store
    rw [(applyBinary_same here there store).1, same]

theorem differs_iff (here : left ≠ nothing) (there : right ≠ nothing) :
    left.Differs right ↔ left.same right = false := by
  constructor
  · intro differ
    have yielded := (applyBinary_same here there .initial).2.symm.trans (differ .initial)
    simpa using yielded
  · intro other store
    rw [(applyBinary_same here there store).2, other]
    rfl

namespace Entered

variable {ledger more : List Value} {value : Value}

/-- A value without an identity has no place in a ledger. -/
theorem of_identity (there : value ≠ nothing) (none : value.identity? = none) :
    Entered ledger value :=
  ⟨there, fun identity own => by rw [none] at own; cases own⟩

/-- A longer ledger says the same of the identities it had. -/
theorem mono (entered : Entered ledger value) (onward : ledger <+: more) : Entered more value := by
  refine ⟨entered.1, fun identity own => ?_⟩
  obtain ⟨added, rfl⟩ := onward
  have found := entered.2 identity own
  rw [List.getElem?_append_left (List.getElem?_eq_some_iff.mp found).1]
  exact found

end Entered

namespace Listed

variable {ledger : List Value} {first second : Value}

theorem ne_nothing (listed : first.Listed ledger) : first ≠ .nothing :=
  listed.here.1

/-- **Listed values are the same only if they are equal.** -/
theorem same_iff (listed : first.Listed ledger) (listed' : second.Listed ledger) :
    first.same second = true ↔ first = second := by
  refine ⟨fun same => ?_, fun equal => equal ▸ same_self first⟩
  rcases same_eq_true_iff.mp same with ⟨-, equal⟩ | ⟨identity, own, own', -⟩
  · exact equal
  · exact Option.some.inj ((listed.here.2 identity own).symm.trans (listed'.here.2 identity own'))

/-- **Equality is sound among listed values.** -/
theorem soundEquality (ledger : List Value) : SoundEquality fun value => value.Listed ledger := by
  have equal : ∀ {left right : Value}, left.Listed ledger → right.Listed ledger →
      (left.Equals right ↔ left = right) := fun here there =>
    (equals_iff here.ne_nothing there.ne_nothing).trans (same_iff here there)
  refine ⟨?_, ?_, ?_, ?_, ?_, ?_, ?_, ?_⟩
  · intro left right here there
    exact ⟨left.same right, applyBinary_same here.ne_nothing there.ne_nothing⟩
  · exact fun here => (equal here here).mpr rfl
  · exact fun here there equals => (equal there here).mpr ((equal here there).mp equals).symm
  · intro first second third one two three equals equals'
    exact (equal one three).mpr (((equal one two).mp equals).trans ((equal two three).mp equals'))
  · exact fun here there equals => congrArg tag? ((equal here there).mp equals)
  · exact fun here there equals => congrArg inspect ((equal here there).mp equals)
  · exact fun left right => (equals_iff (by simp) (by simp)).trans (by simp [same])
  · exact fun left right => (equals_iff (by simp) (by simp)).trans (by simp [same])

/-- **A value with a later identity differs** from all values that are listed. -/
theorem differs (listed : second.Listed ledger) {identity : Nat}
    (own : first.identity? = some identity) (later : ledger.length ≤ identity) :
    first.Differs second := by
  have there : first ≠ .nothing := by
    rintro rfl
    cases own
  refine (differs_iff there listed.ne_nothing).mpr (Bool.eq_false_iff.mpr fun same => ?_)
  rcases same_eq_true_iff.mp same with ⟨none, -⟩ | ⟨other, own', own'', -⟩
  · rw [own] at none
    cases none
  · obtain rfl := Option.some.inj (own.symm.trans own')
    have found := listed.here.2 identity own''
    exact absurd (List.getElem?_eq_some_iff.mp found).1 (Nat.not_lt.mpr later)

end Listed

end Value

end Scriptlet
