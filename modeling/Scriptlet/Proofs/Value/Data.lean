/-
**Data.**

* `Value.anonymous`: a value without its identity, and without those of the values in it.
* `Value.Data`: integers that have a numeral, truth values, and arrays and hashes of data, in which
  all keys are different integers and truth values.
* `Value.literal`: the expression that data are written as. A negative integer is the operator `-`
  with an operand.

Main statements: values that are alike but for identities have the same text
(`Value.inspect_anonymous`); every number of 64 bits is read from its digits
(`Number.isNumberText_repr`, `Number.read_repr`).
-/
import Scriptlet.Proofs.Token.Scanning
import Scriptlet.Proofs.Tree.Blockless
import Scriptlet.Proofs.Value.Collected
import Scriptlet.Tree.Build
import Scriptlet.Value.Text

namespace Scriptlet

namespace Value

mutual

/-- A value without any identity. -/
def anonymous : Value → Value
  | string _ text => string 0 text
  | array _ elements => array 0 (anonymousAll elements)
  | hash _ pairs => hash 0 (anonymousPairs pairs)
  | function _ parameters body scope => function 0 parameters body scope
  | returned _ operand => returned 0 operand.anonymous
  | error _ complaint => error 0 complaint
  | value => value

/-- Values without any identity. -/
def anonymousAll : List Value → List Value
  | [] => []
  | value :: rest => value.anonymous :: anonymousAll rest

/-- Pairs of values without any identity. -/
def anonymousPairs : List (Value × Value) → List (Value × Value)
  | [] => []
  | (key, value) :: rest => (key.anonymous, value.anonymous) :: anonymousPairs rest

end

theorem anonymousAll_eq_map (values : List Value) : anonymousAll values = values.map anonymous := by
  induction values with
  | nil => rfl
  | cons value rest ih => rw [anonymousAll, ih, List.map_cons]

theorem anonymousPairs_eq_map (pairs : List (Value × Value)) :
    anonymousPairs pairs = pairs.map fun pair => (pair.1.anonymous, pair.2.anonymous) := by
  induction pairs with
  | nil => rfl
  | cons pair rest ih => rw [anonymousPairs, ih, List.map_cons]

@[simp] theorem isSignal_anonymous (value : Value) : value.anonymous.isSignal = value.isSignal := by
  cases value <;> rfl

@[simp] theorem content?_anonymous (value : Value) : value.anonymous.content? = value.content? := by
  cases value <;> rfl

mutual

/-- **A value has the same text without its identity.** -/
theorem inspect_anonymous : (value : Value) → value.anonymous.inspect = value.inspect
  | .array _ elements => by simp only [anonymous, inspect, inspectAll_anonymous elements]
  | .hash _ pairs => by simp only [anonymous, inspect, inspectPairs_anonymous pairs]
  | .returned _ operand => by simp only [anonymous, inspect, inspect_anonymous operand]
  | .nothing | .integer _ | .boolean _ | .string _ _ | .null | .function .. | .builtin _
  | .error _ _ => by simp only [anonymous, inspect]

/-- The same of values. -/
theorem inspectAll_anonymous : (values : List Value) →
    inspectAll (anonymousAll values) = inspectAll values
  | [] => rfl
  | value :: rest => by
    simp only [anonymousAll, inspectAll, inspect_anonymous value, inspectAll_anonymous rest]

/-- The same of pairs of values. -/
theorem inspectPairs_anonymous : (pairs : List (Value × Value)) →
    inspectPairs (anonymousPairs pairs) = inspectPairs pairs
  | [] => rfl
  | (key, value) :: rest => by
    simp only [anonymousPairs, inspectPairs, inspect_anonymous key, inspect_anonymous value,
      inspectPairs_anonymous rest]

end

/-! ### Data and their literals -/

/-- A key of data: an integer or a truth value. -/
def IsPlainKey : Value → Prop
  | integer _ | boolean _ => True
  | _ => False

/-- Values that are written as they are: integers between the numerals, truth values, and arrays and
hashes of them, in which the keys are different integers and truth values. -/
inductive Data : Value → Prop
  | integer {number : Int} : -Number.greatest ≤ number → number ≤ Number.greatest →
      Data (.integer number)
  | boolean (truth : Bool) : Data (.boolean truth)
  | array {identity : Nat} {elements : List Value} : (∀ element ∈ elements, Data element) →
      Data (.array identity elements)
  | hash {identity : Nat} {pairs : List (Value × Value)} :
      (∀ pair ∈ pairs, pair.1.IsPlainKey) → (∀ pair ∈ pairs, Data pair.1) →
      (∀ pair ∈ pairs, Data pair.2) → (pairs.map fun pair => pair.1.content?).Nodup →
      Data (.hash identity pairs)

/-- Data are no signals. -/
theorem Data.calm {value : Value} (data : value.Data) : value.isSignal = false := by
  cases data <;> rfl

/-- The numeral of an integer; a negative one is written with the operator. -/
def numeral (number : Int) : Tree :=
  if number < 0 then Build.unary "-" (Build.integer (-number)) else Build.integer number

mutual

/-- The expression that data are written as. -/
def literal : Value → Tree
  | integer number => numeral number
  | boolean truth => Build.boolean truth
  | array _ elements => Build.array (literals elements)
  | hash _ pairs => .node .hash (literalPairs pairs)
  | _ => .absent

/-- The expressions of elements. -/
def literals : List Value → List Tree
  | [] => []
  | value :: rest => value.literal :: literals rest

/-- The trees of keys and values. -/
def literalPairs : List (Value × Value) → List Tree
  | [] => []
  | (key, value) :: rest => .node .pair [key.literal, value.literal] :: literalPairs rest

end

theorem literals_eq_map (values : List Value) : literals values = values.map literal := by
  induction values with
  | nil => rfl
  | cons value rest ih => rw [literals, ih, List.map_cons]

theorem literalPairs_eq_map (pairs : List (Value × Value)) :
    literalPairs pairs = pairs.map fun pair => .node .pair [pair.1.literal, pair.2.literal] := by
  induction pairs with
  | nil => rfl
  | cons pair rest ih => rw [literalPairs, ih, List.map_cons]

end Value

/-! ### Numerals -/

namespace Number

/-- The digits of a number write the number. -/
theorem value_toDigits (number : Nat) : value (Nat.toDigits 10 number) = number := by
  have digit : ∀ c ∈ digits, Text.digitValue? c = some (c.toNat - '0'.toNat) := by
    intro c member
    simp only [digits, List.mem_cons, List.not_mem_nil, or_false] at member
    rcases member with rfl | rfl | rfl | rfl | rfl | rfl | rfl | rfl | rfl | rfl
    all_goals decide
  have all : ∀ chars : List Char, (∀ c ∈ chars, c.isDigit = true) →
      chars.filterMap Text.digitValue? = chars.map fun c => c.toNat - '0'.toNat := by
    intro chars each
    induction chars with
    | nil => rfl
    | cons c rest ih =>
      obtain ⟨here, others⟩ := List.forall_mem_cons.mp each
      rw [List.filterMap_cons_some (digit c (mem_digits here)), ih others, List.map_cons]
  rw [value, all _ fun c => Nat.isDigit_of_mem_toDigits (by decide) (by decide), List.foldl_map]
  calc _ = Nat.ofDigitChars 10 (Nat.toDigits 10 number) 0 := Nat.ofDigitChars_eq_foldl.symm
    _ = number := Nat.ofDigitChars_ten_toDigits

/-- **A number of 64 bits is written in digits that can be read.** -/
theorem isNumberText_repr {number : Nat} (fits : (number : Int) ≤ greatest) :
    IsNumberText (Nat.repr number).toList := by
  rw [Nat.toList_repr]
  refine ⟨Nat.length_toDigits_pos, ?_, fun c => Nat.isDigit_of_mem_toDigits (by decide) (by decide),
    ?_⟩
  · have few : number < 10 ^ digitLimit := by
      have small : number < 10 ^ 19 := by
        have bound : (greatest : Int) < 10 ^ 19 := by decide
        omega
      exact Nat.lt_of_lt_of_le small (Nat.pow_le_pow_right (by decide) (by decide))
    exact (Nat.length_toDigits_le_iff (by decide) (by decide)).mpr few
  · rw [value_toDigits]
    exact fits

/-- It is read from these digits. -/
theorem read_repr {number : Nat} (fits : (number : Int) ≤ greatest) :
    read (Nat.repr number) = .ok (number : Int) := by
  obtain ⟨some_, few, each, -⟩ := isNumberText_repr fits
  rw [read_of_digits some_ each, if_neg (Nat.not_lt.mpr few), Nat.toList_repr, value_toDigits]

end Number

end Scriptlet
