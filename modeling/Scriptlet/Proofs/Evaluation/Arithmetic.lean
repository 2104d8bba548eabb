/-
**Arithmetic on integers that wrap.**

Sums, differences, products and negations of integers may be understood in any ring that gives a
meaning to the numerals. Evaluation wraps after every operator; the wrapped integers are themselves
such a ring, so it comes to the same as to wrap once.

* `Tree.Amounts`: what a tree of numerals and of these operators amounts to in a ring.

Main statement: `arithmetic_wraps`. Such a tree yields the wrapped integer of its exact value, and so
does any other one that is equal to it as a polynomial.
-/
import Mathlib.Algebra.MvPolynomial.Eval
import Scriptlet.Proofs.Evaluation.Steady
import Scriptlet.Proofs.Number.Residue

namespace Scriptlet

namespace Tree

variable {R S : Type} [CommRing R] [CommRing S]

/-- What a tree of numerals, sums, differences, products and negations amounts to in a ring, where
every numeral, of 64 bits, has a meaning. -/
inductive Amounts (meaning : ℤ → R) : Tree → R → Prop
  | literal {token : Token} {number : ℤ} : Number.read token.text = .ok number →
      Number.Fits number → Amounts meaning (.node .integer [.leaf token]) (meaning number)
  | negation {operator : Token} {part : Tree} {amount : R} : operator.text = "-" →
      Amounts meaning part amount → Amounts meaning (.node .unary [.leaf operator, part]) (-amount)
  | sum {operator : Token} {first second : Tree} {left right : R} : operator.text = "+" →
      Amounts meaning first left → Amounts meaning second right →
      Amounts meaning (.node .binary [first, .leaf operator, second]) (left + right)
  | difference {operator : Token} {first second : Tree} {left right : R} : operator.text = "-" →
      Amounts meaning first left → Amounts meaning second right →
      Amounts meaning (.node .binary [first, .leaf operator, second]) (left - right)
  | product {operator : Token} {first second : Tree} {left right : R} : operator.text = "*" →
      Amounts meaning first left → Amounts meaning second right →
      Amounts meaning (.node .binary [first, .leaf operator, second]) (left * right)

namespace Amounts

variable {meaning : ℤ → R} {tree : Tree} {amount : R}

/-- A map of rings takes what a tree amounts to along. -/
theorem map (change : R →+* S) (amounts : tree.Amounts meaning amount) :
    tree.Amounts (fun number => change (meaning number)) (change amount) := by
  induction amounts with
  | literal read fits => exact .literal read fits
  | negation spelled _ ih =>
    rw [map_neg]
    exact .negation spelled ih
  | sum spelled _ _ ih ih' =>
    rw [map_add]
    exact .sum spelled ih ih'
  | difference spelled _ _ ih ih' =>
    rw [map_sub]
    exact .difference spelled ih ih'
  | product spelled _ _ ih ih' =>
    rw [map_mul]
    exact .product spelled ih ih'

/-- **Wrapping at every operator is wrapping once**: a tree yields the wrapped integer of what it
amounts to over all integers. -/
theorem steady {exact : ℤ} (amounts : tree.Amounts id exact) (scope : ScopeId) (store : Store) :
    tree.Steady scope store (.integer (Number.wrap exact)) := by
  induction amounts with
  | literal read fits =>
    rw [id, Number.wrap_of_mem fits]
    exact .integer read
  | negation spelled _ ih =>
    rw [← Number.wrap_neg]
    exact .unary ih rfl (by rw [spelled]; rfl)
  | sum spelled _ _ ih ih' =>
    rw [← Number.wrap_add]
    exact .integers ih ih' (by rw [spelled]; rfl) rfl
  | difference spelled _ _ ih ih' =>
    rw [← Number.wrap_sub]
    exact .integers ih ih' (by rw [spelled]; rfl) rfl
  | product spelled _ _ ih ih' =>
    rw [← Number.wrap_mul]
    exact .integers ih ih' (by rw [spelled]; rfl) rfl

/-- Whatever a tree amounts to is the same when it is wrapped, since the tree yields it. -/
theorem wrap_unique {exact other : ℤ} (amounts : tree.Amounts id exact)
    (amounts' : tree.Amounts id other) : Number.wrap exact = Number.wrap other := by
  have one := (amounts.steady Store.root .initial).enough (Nat.le_refl tree.height)
  rw [(amounts'.steady Store.root .initial).enough (Nat.le_refl tree.height)] at one
  exact (Value.integer.inj (Except.ok.inj (congrArg Prod.fst one))).symm

end Amounts

end Tree

/-- **Arithmetic wraps as a ring.** A tree of numerals, sums, differences, products and negations
yields the wrapped integer of its exact value wherever the limit allows for its height, and changes
nothing; that is the only integer of 64 bits that agrees with the exact value modulo `2 ^ 64`. A tree
that is equal to it as a polynomial yields the same integer, whether the numerals are taken for
variables or for what they stand for. -/
theorem arithmetic_wraps {tree : Tree} {exact : ℤ} (amounts : tree.Amounts id exact) :
    (∀ scope store, tree.Steady scope store (.integer (Number.wrap exact))) ∧
    (∀ number, number = Number.wrap exact ↔ Number.Fits number ∧ number ≡ exact [ZMOD 2 ^ 64]) ∧
    ∀ (meaning : ℤ → MvPolynomial ℤ ℤ) (polynomial : MvPolynomial ℤ ℤ) (other : Tree),
      (∀ number, MvPolynomial.eval id (meaning number) = number) →
      tree.Amounts meaning polynomial → other.Amounts meaning polynomial →
      ∀ scope store, other.Steady scope store (.integer (Number.wrap exact)) := by
  refine ⟨amounts.steady, fun _ => Number.eq_wrap_iff,
    fun meaning polynomial other stands equal equal' scope store => ?_⟩
  have valued : (fun number => MvPolynomial.eval id (meaning number)) = id := funext stands
  have one := equal.map (MvPolynomial.eval id)
  have two := equal'.map (MvPolynomial.eval id)
  rw [valued] at one two
  rw [amounts.wrap_unique one]
  exact two.steady scope store

/-- The least integer is no numeral, and is its own negation: `-(-9223372036854775807 - 1)`. -/
theorem arithmetic_wraps_least :
    let token (kind : Kind) (text : String) : Tree := .leaf ⟨kind, text, .start, 0⟩
    let literal (digits : String) : Tree := .node .integer [token .integer digits]
    let minus : Tree := token .minus "-"
    let tree : Tree := .node .unary [minus, .node .binary
      [.node .unary [minus, literal "9223372036854775807"], minus, literal "1"]]
    tree.Amounts id (2 ^ 63) ∧
      (evaluate 4 tree Store.root).runFrom .initial = (.ok (.integer Number.least), .initial) := by
  intro token literal minus tree
  have greatest : (literal "9223372036854775807").Amounts id Number.greatest :=
    .literal rfl (by decide)
  have one : (literal "1").Amounts id 1 := .literal rfl (by decide)
  have amounts : tree.Amounts id (2 ^ 63) :=
    .negation rfl (.difference rfl (.negation rfl greatest) one)
  exact ⟨amounts, (arithmetic_wraps amounts).1 Store.root .initial 4⟩

end Scriptlet
