/-
**Arithmetic that wraps.**

* `truncated`: the whole part of a rational number, toward zero.

`wrap_add`, `wrap_sub`, `wrap_mul`, `wrap_neg`: wrapping the operands first changes nothing of the
wrapped result. `eq_wrap_iff`: the wrapped integer is the one of 64 bits that agrees modulo `2 ^ 64`.
`quotient_eq_truncated`: division drops the fraction of the rational quotient; what it leaves of the
dividend has a size below the divisor's and the sign of the dividend.
-/
import Mathlib.Data.Int.ModEq
import Mathlib.Data.Rat.Floor
import Scriptlet.Number.Word

namespace Scriptlet.Number

variable {number exact : ℤ}

/-! ### Sums and products -/

section Ring

variable (first second : ℤ)

theorem wrap_add : wrap (wrap first + wrap second) = wrap (first + second) := by
  unfold wrap
  rw [Int.bmod_add_bmod, Int.add_bmod_bmod]

theorem wrap_sub : wrap (wrap first - wrap second) = wrap (first - second) := by
  unfold wrap
  rw [Int.bmod_sub_bmod, Int.sub_bmod_bmod]

theorem wrap_mul : wrap (wrap first * wrap second) = wrap (first * second) := by
  unfold wrap
  rw [Int.bmod_mul_bmod, Int.mul_bmod_bmod]

theorem wrap_neg : wrap (-wrap first) = wrap (-first) := by
  have shifted := wrap_sub 0 first
  have zero : wrap 0 = 0 := by decide
  rwa [zero, zero_sub, zero_sub] at shifted

end Ring

/-- Integers that agree modulo `2 ^ 64` are wrapped to the same. -/
theorem wrap_congr (agree : number ≡ exact [ZMOD 2 ^ 64]) : wrap number = wrap exact := by
  have same : number % UInt64.size = exact % UInt64.size := agree
  rw [wrap, ← Int.emod_bmod, same, Int.emod_bmod, wrap]

/-- **The wrapped integer** is the only one of 64 bits that agrees modulo `2 ^ 64`. -/
theorem eq_wrap_iff : number = wrap exact ↔ Fits number ∧ number ≡ exact [ZMOD 2 ^ 64] := by
  constructor
  · rintro rfl
    exact ⟨wrap_mem exact, wrap_emod exact⟩
  · rintro ⟨fits, agree⟩
    rw [← wrap_congr agree, wrap_of_mem fits]

/-! ### Quotients -/

/-- The whole part of a rational number, toward zero. -/
def truncated (ratio : ℚ) : ℤ :=
  if 0 ≤ ratio then ⌊ratio⌋ else ⌈ratio⌉

theorem truncated_neg (ratio : ℚ) : truncated (-ratio) = -truncated ratio := by
  unfold truncated
  rcases lt_trichotomy ratio 0 with negative | rfl | positive
  · rw [if_pos (by linarith), if_neg (by linarith), Int.floor_neg]
  · simp
  · rw [if_neg (by linarith), if_pos (by linarith), Int.ceil_neg]

theorem truncated_natCast_div (dividend divisor : ℕ) :
    truncated (dividend / divisor) = (dividend / divisor : ℕ) := by
  rw [truncated, if_pos (by positivity), Rat.floor_natCast_div_natCast,
    Int.natCast_div]

variable (dividend divisor : ℤ)

/-- **Division drops the fraction** of the rational quotient. -/
theorem quotient_eq_truncated : quotient dividend divisor = truncated (dividend / divisor) := by
  have natural : ∀ dividend divisor : ℕ,
      Int.tdiv dividend divisor = truncated (dividend / divisor) := fun dividend divisor => by
    rw [truncated_natCast_div, Int.tdiv_eq_ediv_of_nonneg (Int.natCast_nonneg _)]
    rfl
  unfold quotient
  obtain ⟨dividend, rfl | rfl⟩ := dividend.eq_nat_or_neg <;>
    obtain ⟨divisor, rfl | rfl⟩ := divisor.eq_nat_or_neg <;>
    simp [natural, neg_div, div_neg, truncated_neg]

/-- What division leaves of the dividend. -/
def remainder : ℤ :=
  dividend - quotient dividend divisor * divisor

theorem remainder_eq_tmod : remainder dividend divisor = dividend.tmod divisor := by
  rw [remainder, quotient, Int.tmod_def, Int.mul_comm]

variable {dividend divisor}

theorem abs_remainder_lt (dividend : ℤ) (divides : divisor ≠ 0) : |remainder dividend divisor| < |divisor| := by
  rw [remainder_eq_tmod, Int.abs_eq_natAbs, Int.abs_eq_natAbs, Int.natAbs_tmod]
  exact_mod_cast Nat.mod_lt _ (Int.natAbs_pos.mpr divides)

theorem sign_remainder (dividend divisor : ℤ) : remainder dividend divisor = 0 ∨
    (remainder dividend divisor).sign = dividend.sign := by
  rw [remainder_eq_tmod, ← Int.sign_eq_zero_iff_zero, Int.sign_tmod]
  by_cases exact : divisor ∣ dividend
  · exact Or.inl (if_pos exact)
  · exact Or.inr (if_neg exact)

/-- What is left fits, as the divisor does. -/
theorem fits_remainder (fits : Fits divisor) (divides : divisor ≠ 0) :
    Fits (remainder dividend divisor) := by
  have smaller := abs_lt.mp (abs_remainder_lt dividend divides)
  have bound : |divisor| ≤ 2 ^ 63 := abs_le.mpr (by unfold Fits least greatest at fits; omega)
  unfold Fits least greatest
  omega

/-- The quotient fits, but for that of the least integer by `-1`. -/
theorem fits_quotient (fits : Fits dividend) (other : ¬ (dividend = least ∧ divisor = -1)) :
    Fits (quotient dividend divisor) := by
  have size : (quotient dividend divisor).natAbs = dividend.natAbs / divisor.natAbs :=
    Int.natAbs_tdiv dividend divisor
  unfold Fits least greatest at fits ⊢
  by_cases one : divisor = 1
  · rwa [quotient, one, Int.tdiv_one]
  by_cases minusOne : divisor = -1
  · unfold least at other
    rw [quotient, minusOne, Int.tdiv_neg, Int.tdiv_one]
    omega
  · -- any other divisor at least halves the size
    have half : dividend.natAbs / divisor.natAbs ≤ dividend.natAbs / 2 := by
      rcases Nat.eq_zero_or_pos divisor.natAbs with zero | positive
      · rw [zero, Nat.div_zero]
        exact Nat.zero_le _
      · exact Nat.div_le_div_left (by omega) Nat.two_pos
    omega

/-- Only the quotient of the least integer by `-1` wraps, to the least integer. -/
theorem wrap_quotient (fits : Fits dividend) : wrap (quotient dividend divisor) =
    if dividend = least ∧ divisor = -1 then least else quotient dividend divisor := by
  split
  next extreme =>
    obtain ⟨rfl, rfl⟩ := extreme
    decide
  next other => exact wrap_of_mem (fits_quotient fits other)

/-- **Division and remainder go together**, whatever wraps in between. -/
theorem wrap_remainder (fits : Fits divisor) (divides : divisor ≠ 0) :
    wrap (dividend - wrap (wrap (quotient dividend divisor) * divisor)) =
      remainder dividend divisor := by
  have inner : wrap (wrap (quotient dividend divisor) * divisor) =
      wrap (quotient dividend divisor * divisor) := Int.bmod_mul_bmod
  have outer : wrap (dividend - wrap (quotient dividend divisor * divisor)) =
      wrap (dividend - quotient dividend divisor * divisor) := Int.sub_bmod_bmod
  rw [inner, outer]
  exact wrap_of_mem (fits_remainder fits divides)

end Scriptlet.Number
