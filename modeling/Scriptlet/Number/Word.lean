/-
**Signed integers of 64 bits.**

* `wrap`: the integer of 64 bits that agrees with a given one modulo `2 ^ 64`.
* `quotient`: division that drops the fraction.

`wrap_mem`: the result lies in `[-2 ^ 63, 2 ^ 63 - 1]`; `wrap_of_mem`: an integer that lies there
is kept; `wrap_emod`: nothing changes modulo `2 ^ 64`.
-/

namespace Scriptlet.Number

/-- The largest integer of 64 bits. -/
def greatest : Int := 0x7fffffffffffffff

/-- The least integer of 64 bits. -/
def least : Int := -0x8000000000000000

/-- The integers of 64 bits. -/
def Fits (value : Int) : Prop :=
  least ≤ value ∧ value ≤ greatest

instance (value : Int) : Decidable (Fits value) :=
  inferInstanceAs (Decidable (_ ∧ _))

/-- The integer of 64 bits that agrees with `value` modulo `2 ^ 64`. -/
def wrap (value : Int) : Int :=
  Int.bmod value UInt64.size

/-- Division that drops the fraction; the divisor is not zero. -/
def quotient (dividend divisor : Int) : Int :=
  Int.tdiv dividend divisor

/-- Wrapping gives an integer of 64 bits. -/
theorem wrap_mem (value : Int) : Fits (wrap value) := by
  have lower := Int.le_bmod (x := value) (m := UInt64.size) (by decide)
  have upper := Int.bmod_lt (x := value) (m := UInt64.size) (by decide)
  unfold Fits least greatest wrap
  unfold UInt64.size at lower upper ⊢
  omega

/-- Wrapping keeps an integer of 64 bits. -/
theorem wrap_of_mem {value : Int} (fits : Fits value) : wrap value = value := by
  unfold Fits least greatest at fits
  unfold wrap UInt64.size
  rw [Int.bmod_eq_of_le] <;> omega

/-- Wrapping changes nothing modulo `2 ^ 64`. -/
theorem wrap_emod (value : Int) : wrap value % UInt64.size = value % UInt64.size :=
  Int.bmod_emod

end Scriptlet.Number
