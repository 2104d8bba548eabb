/-
**Division of what two names stand for.**

* `Tree.DividesNames`: the tree divides what one name stands for by what another one does.
* `Moment.DividesByZero`: such a tree is entered where the divisor is zero.
* `HaltsDividing`: an evaluation ends at such a moment; `halting` is the aftermath that says so.

Main statement: `division_truncates`. Quotients drop their fraction and remainders take the sign of
the dividend, whatever wraps in between; an evaluation that comes to a division by zero ends there.
-/
import Scriptlet.Proofs.Evaluation.Limit
import Scriptlet.Proofs.Evaluation.Steady
import Scriptlet.Proofs.Number.Residue

namespace Scriptlet

/-- The tree divides what one name stands for by what another one does. -/
inductive Tree.DividesNames : Tree → String → String → Prop
  | intro {first operator second : Token} : operator.text = "/" →
      DividesNames (.node .binary [.node .identifier [.leaf first], .leaf operator,
        .node .identifier [.leaf second]]) first.text second.text

/-- A tree is entered that divides an integer that one name stands for by another one that stands for
zero. -/
def Moment.DividesByZero (moment : Moment) (store : Store) : Prop :=
  match moment with
  | .entered tree scope => ∃ dividend divisor number, tree.DividesNames dividend divisor ∧
      store.lookup? scope dividend = some (.integer number) ∧
      store.lookup? scope divisor = some (.integer 0)
  | _ => False

/-- An evaluation comes to a first division by zero, at a given store, and ends there. Within the same
limit it may be that the names of the division are too deep, but not within any larger one. -/
structure HaltsDividing (limit : Nat) (tree : Tree) (scope : ScopeId) (store reached : Store) :
    Prop where
  entered : StoppedAt (fun moment now => ¬ moment.DividesByZero now) limit tree scope store reached
  ends : (evaluate limit tree scope).runFrom store = (.error .divisionByZero, reached) ∨
    (evaluate limit tree scope).runFrom store = (.error .nestingTooDeep, reached)
  further : ∀ more, 0 < more →
    (evaluate (limit + more) tree scope).runFrom store = (.error .divisionByZero, reached)

section Quotient

variable {tree : Tree} {dividend divisor : String} {scope : ScopeId} {store : Store} {one other : Int}

/-- A quotient is wrapped. -/
theorem Tree.DividesNames.steady (divides : tree.DividesNames dividend divisor)
    (found : store.lookup? scope dividend = some (.integer one))
    (found' : store.lookup? scope divisor = some (.integer other)) (some_ : other ≠ 0) :
    tree.Steady scope store (.integer (Number.wrap (Number.quotient one other))) := by
  obtain ⟨spelled⟩ := divides
  refine .integers (.identifier found) (.identifier found') (by rw [spelled]; rfl) ?_
  rw [Eval.combineIntegers, if_neg some_]
  rfl

/-- What is left of the dividend does not wrap, whatever wraps on the way. -/
theorem Tree.DividesNames.steady_remainder (divides : tree.DividesNames dividend divisor)
    (found : store.lookup? scope dividend = some (.integer one))
    (found' : store.lookup? scope divisor = some (.integer other)) (some_ : other ≠ 0)
    (fits : Number.Fits other) {first minus times second : Token} (name : first.text = dividend)
    (spelled : minus.text = "-") (spelled' : times.text = "*") (name' : second.text = divisor) :
    (Tree.node .binary [.node .identifier [.leaf first], .leaf minus, .node .binary
      [tree, .leaf times, .node .identifier [.leaf second]]]).Steady scope store
        (.integer (Number.remainder one other)) := by
  subst name name'
  have product := (divides.steady found found' some_).integers (.identifier found')
    (show BinaryOperator.ofText? times.text = some .multiply by rw [spelled']; rfl) rfl
  rw [← Number.wrap_remainder fits some_]
  exact .integers (.identifier found) product (by rw [spelled]; rfl) rfl

/-- **A division by zero** ends in a fault of its own, unless the limit does not allow for the
names; it changes nothing. -/
theorem Tree.DividesNames.evaluate_zero (divides : tree.DividesNames dividend divisor)
    (found : store.lookup? scope dividend = some (.integer one))
    (found' : store.lookup? scope divisor = some (.integer 0)) (limit : Nat) :
    (evaluate (limit + 1) tree scope).runFrom store =
      (.error (if limit = 0 then .nestingTooDeep else .divisionByZero), store) := by
  obtain ⟨spelled⟩ := divides
  cases limit with
  | zero => rfl
  | succ limit =>
    have high : ∀ name : Token, (Tree.node .identifier [.leaf name]).height ≤ limit + 1 :=
      fun name => Nat.le_add_left 1 limit
    refine (Eval.runFrom_used_calm ((Tree.Steady.identifier found).enough (high _)) _ rfl).trans ?_
    refine (Eval.runFrom_used_calm ((Tree.Steady.identifier found').enough (high _)) _ rfl).trans ?_
    rw [Tree.tokenText, spelled]
    rfl

end Quotient

/-- After a division by zero is entered nothing changes any more, and the evaluation ends in a fault:
in that of the division, unless its limit is the same and is exhausted. -/
def halting (more : Nat) : Aftermath where
  policy := growth
  isOpen := growth_isOpen
  more := more
  ends reached fault? last :=
    last = reached ∧ (fault? = some .divisionByZero ∨ more = 0 ∧ fault? = some .nestingTooDeep)
  onward ended := by simp at ended

theorem halting_covers (more : Nat) :
    (halting more).Covers fun moment now => ¬ moment.DividesByZero now where
  entered refused limit := by
    obtain ⟨dividend, divisor, number, divides, found, found'⟩ := not_not.mp refused
    rw [divides.evaluate_zero found found']
    refine ⟨rfl, ?_⟩
    split
    next least => exact Or.inr ⟨Nat.eq_zero_of_add_eq_zero_left least, rfl⟩
    · exact Or.inl rfl
  yielded refused := (refused fun divides => divides).elim
  applied refused := (refused fun divides => divides).elim

theorem halting_follows {more : Nat} {reached : Store} {ended : Except Fault Value × Store}
    (follows : (halting more).Follows reached ended) :
    ended = (.error .divisionByZero, reached) ∨ more = 0 ∧ ended = (.error .nestingTooDeep, reached) := by
  obtain ⟨result, last⟩ := ended
  obtain ⟨rfl, ended⟩ := follows
  cases result with
  | ok value => simp [Eval.fault?] at ended
  | error fault => simpa [Eval.fault?] using ended

/-- **An evaluation divides by zero nowhere, or it ends where it first does.** -/
theorem always_or_halts (limit : Nat) (tree : Tree) (scope : ScopeId) (store : Store) :
    AlwaysEvaluating (fun moment now => ¬ moment.DividesByZero now) limit tree scope store ∨
      ∃ reached, HaltsDividing limit tree scope store reached := by
  refine (always_or_stopped (halting_covers 0) rfl limit tree scope store).imp_right ?_
  rintro ⟨reached, stopped, follows⟩
  refine ⟨reached, stopped, (halting_follows follows).imp_right And.right, fun more some_ => ?_⟩
  have further := stopped.follows (halting_covers more)
  exact (halting_follows further).resolve_right fun none_ => Nat.ne_of_gt some_ none_.1

/-- The text of a quotient. -/
theorem parse_quotient : ∃ tree : Tree, tree.DividesNames "a" "b" ∧ tree.height = 2 ∧
    parse "a / b" = .ok (.node .program [.node .expressionStatement [tree]]) :=
  ⟨.node .binary [.node .identifier [.leaf ⟨.identifier, "a", ⟨1, 1, 0⟩, 1⟩],
    .leaf ⟨.slash, "/", ⟨1, 3, 2⟩, 3⟩, .node .identifier [.leaf ⟨.identifier, "b", ⟨1, 5, 4⟩, 5⟩]],
    .intro rfl, rfl, rfl⟩

/-- The text of what a quotient leaves of the dividend. -/
theorem parse_remainder : ∃ (tree : Tree) (first minus times second : Token),
    tree.DividesNames "a" "b" ∧ tree.height = 2 ∧
    (first.text = "a" ∧ minus.text = "-" ∧ times.text = "*" ∧ second.text = "b") ∧
    parse "a - (a / b) * b" = .ok (.node .program [.node .expressionStatement [.node .binary
      [.node .identifier [.leaf first], .leaf minus, .node .binary
        [tree, .leaf times, .node .identifier [.leaf second]]]]]) :=
  ⟨.node .binary [.node .identifier [.leaf ⟨.identifier, "a", ⟨1, 6, 5⟩, 6⟩],
    .leaf ⟨.slash, "/", ⟨1, 8, 7⟩, 8⟩, .node .identifier [.leaf ⟨.identifier, "b", ⟨1, 10, 9⟩, 10⟩]],
    ⟨.identifier, "a", ⟨1, 1, 0⟩, 1⟩, ⟨.minus, "-", ⟨1, 3, 2⟩, 3⟩, ⟨.star, "*", ⟨1, 13, 12⟩, 13⟩,
    ⟨.identifier, "b", ⟨1, 15, 14⟩, 15⟩, .intro rfl, rfl, ⟨rfl, rfl, rfl, rfl⟩, rfl⟩

/-- **Division drops the fraction.** For integers of 64 bits that the names `a` and `b` stand for, and
a divisor that is not zero, the quotient is the whole part of the rational one toward zero, wrapped in
the one case that does not fit; taking the divisor away so many times leaves a remainder of a size
below the divisor's and with the sign of the dividend, or zero. An evaluation of any tree that comes
to a division by a name that stands for zero ends in the fault of that division, with the store as it
is when the division is entered. -/
theorem division_truncates :
    (∀ (scope : ScopeId) (store : Store) (dividend divisor : ℤ), Number.Fits dividend →
      Number.Fits divisor → divisor ≠ 0 → store.lookup? scope "a" = some (.integer dividend) →
      store.lookup? scope "b" = some (.integer divisor) →
      let whole := Number.truncated (dividend / divisor)
      let rest := dividend - whole * divisor
      |rest| < |divisor| ∧ (rest = 0 ∨ rest.sign = dividend.sign) ∧ ∀ limit, 6 ≤ limit →
        (∃ program, runWithin limit "a / b" scope store = (⟨some program, .ok (.integer
          (if dividend = Number.least ∧ divisor = -1 then Number.least else whole))⟩, store)) ∧
        ∃ program, runWithin limit "a - (a / b) * b" scope store =
          (⟨some program, .ok (.integer rest)⟩, store)) ∧
    ∀ limit tree scope store,
      AlwaysEvaluating (fun moment now => ¬ moment.DividesByZero now) limit tree scope store ∨
        ∃ reached, HaltsDividing limit tree scope store reached := by
  refine ⟨?_, always_or_halts⟩
  intro scope store dividend divisor fits fits' some_ found found' whole rest
  have same : whole = Number.quotient dividend divisor :=
    (Number.quotient_eq_truncated dividend divisor).symm
  have left : rest = Number.remainder dividend divisor := by rw [Number.remainder, ← same]
  refine ⟨left ▸ Number.abs_remainder_lt dividend some_, left ▸ Number.sign_remainder dividend divisor,
    fun limit high => ⟨?_, ?_⟩⟩
  · obtain ⟨tree, divides, level, accepted⟩ := parse_quotient
    have ran := (divides.steady found found' some_).runWithin_eq accepted
      (Nat.le_trans (by rw [level]; decide) high)
    rw [Number.wrap_quotient fits, ← same] at ran
    exact ⟨_, ran⟩
  · obtain ⟨tree, first, minus, times, second, divides, level, ⟨name, spelled, spelled', name'⟩,
      accepted⟩ := parse_remainder
    have ran := (divides.steady_remainder found found' some_ fits' name spelled spelled'
      name').runWithin_eq accepted (Nat.le_trans (by simp [Tree.height, Tree.heightAll, level]) high)
    rw [← left] at ran
    exact ⟨_, ran⟩

/-- The least integer by `-1`: the quotient does not fit and wraps, and nothing is left. -/
theorem division_truncates_least :
    let store := (Store.initial.bind Store.root "a" (.integer Number.least)).bind Store.root "b"
      (.integer (-1))
    (∃ program, runWithin 6 "a / b" Store.root store =
        (⟨some program, .ok (.integer Number.least)⟩, store)) ∧
      ∃ program, runWithin 6 "a - (a / b) * b" Store.root store =
        (⟨some program, .ok (.integer 0)⟩, store) := by
  intro store
  obtain ⟨-, -, yields⟩ := division_truncates.1 Store.root store Number.least (-1) (by decide)
    (by decide) (by decide) rfl rfl
  obtain ⟨quotient, program, remainder⟩ := yields 6 (Nat.le_refl 6)
  have nothing : Number.least - Number.truncated (Number.least / (-1 : ℤ)) * -1 = 0 := by
    rw [← Number.quotient_eq_truncated]
    decide
  rw [nothing] at remainder
  exact ⟨quotient, program, remainder⟩

end Scriptlet
