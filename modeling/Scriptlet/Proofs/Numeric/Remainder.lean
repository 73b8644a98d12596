import Scriptlet.Numeric.Word
import Mathlib.Data.Rat.Floor

/-!
Remainders of words. The machine's own remainder is that of a quotient cut toward zero, and has the
sign of the dividend; where that is not the divisor's, the divisor is added. What comes out is the
remainder of the floored quotient, and no step on the way leaves the range of words.
-/

namespace Scriptlet

namespace Numeric

/-- The greatest integer that is not above the exact quotient. -/
def flooredQuotient (dividend divisor : Int) : Int :=
  ⌊(dividend : ℚ) / divisor⌋

/-- What an exact division leaves over when its quotient is floored. -/
structure FlooredRest (dividend divisor rest : Int) : Prop where
  exact : rest = dividend - divisor * flooredQuotient dividend divisor
  sign : rest = 0 ∨ rest.sign = divisor.sign
  less : |rest| < |divisor|

/--
The steps to a floored remainder stay in the range of words: the machine's remainder is exact where
there is one, the only quotient that does not fit leaves nothing over, and no sum wraps around.
-/
structure StaysInside (dividend divisor : Int64) : Prop where
  exact (rest : Int64) (found : truncatedWordRemainder? dividend divisor = some rest) :
    rest.toInt = dividend.toInt.tmod divisor.toInt
  missing : truncatedWordRemainder? dividend divisor = none ↔
    dividend.toInt = leastWord ∧ divisor.toInt = -1
  nothing (none : truncatedWordRemainder? dividend divisor = none) :
    dividend.toInt.tmod divisor.toInt = 0
  sum (rest : Int64) (found : truncatedWordRemainder? dividend divisor = some rest)
    (some : rest.toInt ≠ 0) (signs : ¬ (rest.toInt < 0 ↔ divisor.toInt < 0)) :
    (rest + divisor).toInt = rest.toInt + divisor.toInt

/-! ### Exact integers -/

section Exact

variable {dividend divisor quotient rest : Int}

/-- A quotient is the floored one when what is left over lies between zero and the divisor. -/
theorem flooredQuotient_eq (whole : divisor * quotient + rest = dividend)
    (between : 0 ≤ rest ∧ rest < divisor ∨ divisor < rest ∧ rest ≤ 0) :
    flooredQuotient dividend divisor = quotient := by
  -- Divided by the divisor, the rest lies between zero and one.
  have scaled : (dividend : ℚ) / divisor = quotient + (rest : ℚ) / divisor := by
    have nonzero : (divisor : ℚ) ≠ 0 := by
      rw [Int.cast_ne_zero]
      omega
    rw [← whole, Int.cast_add, Int.cast_mul, add_div, mul_div_cancel_left₀ _ nonzero]
  rw [flooredQuotient, scaled, Int.floor_intCast_add, Int.floor_eq_zero_iff.mpr, add_zero]
  rcases between with ⟨low, high⟩ | ⟨low, high⟩
  · have positive : (0 : ℚ) < divisor := by exact_mod_cast lt_of_le_of_lt low high
    exact ⟨div_nonneg (by exact_mod_cast low) positive.le,
      (div_lt_one positive).mpr (by exact_mod_cast high)⟩
  · have negative : (divisor : ℚ) < 0 := by exact_mod_cast lt_of_lt_of_le low high
    exact ⟨div_nonneg_of_nonpos (by exact_mod_cast high) negative.le,
      (div_lt_one_of_neg negative).mpr (by exact_mod_cast low)⟩

/-- A floored remainder lies between zero and the divisor. -/
theorem fmod_between (dividend : Int) (nonzero : divisor ≠ 0) :
    0 ≤ dividend.fmod divisor ∧ dividend.fmod divisor < divisor ∨
      divisor < dividend.fmod divisor ∧ dividend.fmod divisor ≤ 0 := by
  -- The remainder that is never negative is moved down for a negative divisor.
  have least := dividend.emod_nonneg nonzero
  have most := dividend.emod_lt nonzero
  simp only [Int.fmod_eq_emod, Int.dvd_iff_emod_eq_zero]
  split <;> omega

/-- The remainder that floors the quotient is what the exact division leaves over. -/
theorem flooredRest_fmod (dividend : Int) (nonzero : divisor ≠ 0) :
    FlooredRest dividend divisor (dividend.fmod divisor) := by
  have between := fmod_between dividend nonzero
  refine ⟨?_, ?_, ?_⟩
  · rw [flooredQuotient_eq (Int.mul_fdiv_add_fmod dividend divisor) between, Int.fmod_def]
  · -- What is not zero lies on the side of the divisor.
    rcases between with ⟨least, most⟩ | ⟨least, most⟩
    · rcases least.eq_or_lt with zero | positive
      · exact .inl zero.symm
      · exact .inr (by rw [Int.sign_eq_one_of_pos positive, Int.sign_eq_one_of_pos (by omega)])
    · rcases most.eq_or_lt with zero | negative
      · exact .inl zero
      · exact .inr (by
          rw [Int.sign_eq_neg_one_of_neg negative, Int.sign_eq_neg_one_of_neg (by omega)])
  · rcases between with ⟨least, most⟩ | ⟨least, most⟩
    · rwa [abs_of_nonneg least, abs_of_pos (by omega)]
    · rw [abs_of_nonpos most, abs_of_neg (by omega)]
      omega

/-- A truncated remainder whose sign is not that of the divisor becomes a floored one by a sum. -/
theorem tmod_corrected (dividend : Int) (nonzero : divisor ≠ 0) :
    (if dividend.tmod divisor ≠ 0 ∧ ¬ (dividend.tmod divisor < 0 ↔ divisor < 0) then
      dividend.tmod divisor + divisor else dividend.tmod divisor) = dividend.fmod divisor := by
  -- Both are told by the remainder that is never negative.
  have least := dividend.emod_nonneg nonzero
  have most := dividend.emod_lt nonzero
  rw [Int.tmod_eq_emod, Int.fmod_eq_emod]
  simp only [Int.dvd_iff_emod_eq_zero]
  split <;> split <;> split <;> omega

end Exact

/-! ### Words -/

variable {dividend divisor rest : Int64}

/-- Only one quotient of two words does not fit: that of the least word by minus one. -/
theorem fit_tdiv_eq_none_iff (nonzero : divisor ≠ 0) :
    fit (dividend.toInt.tdiv divisor.toInt) = none ↔
      dividend.toInt = leastWord ∧ divisor.toInt = -1 := by
  have bounds := toInt_bounds dividend
  have apart : divisor.toInt ≠ 0 := fun zero => nonzero (Int64.toInt_inj.mp zero)
  have size := Int.natAbs_tdiv dividend.toInt divisor.toInt
  rw [fit_eq_none_iff]
  simp only [leastWord, greatestWord] at bounds ⊢
  by_cases unit : divisor.toInt = -1
  · -- By minus one the quotient is the opposite.
    rw [unit, Int.tdiv_neg, Int.tdiv_one]
    omega
  · by_cases one : divisor.toInt = 1
    · rw [one, Int.tdiv_one]
      omega
    · -- By anything greater it is half the dividend at most.
      have half : dividend.toInt.natAbs.div divisor.toInt.natAbs ≤ dividend.toInt.natAbs / 2 :=
        Nat.div_le_div_left (by omega) (by decide)
      omega

/-- The machine finds a remainder but for the one quotient that does not fit. -/
theorem truncatedWordRemainder?_eq_none_iff (nonzero : divisor ≠ 0) :
    truncatedWordRemainder? dividend divisor = none ↔
      dividend.toInt = leastWord ∧ divisor.toInt = -1 := by
  rw [truncatedWordRemainder?, ← fit_tdiv_eq_none_iff nonzero]
  simp [nonzero]

/-- What the machine finds is the exact truncated remainder. -/
theorem toInt_of_truncatedWordRemainder?
    (found : truncatedWordRemainder? dividend divisor = some rest) :
    rest.toInt = dividend.toInt.tmod divisor.toInt := by
  rw [truncatedWordRemainder?] at found
  split at found
  · cases found
  · cases found
    exact Int64.toInt_mod dividend divisor

/-- Zero stands for the one remainder that the machine does not find, and that is right. -/
theorem toInt_truncatedWordRemainder?_getD (nonzero : divisor ≠ 0) :
    ((truncatedWordRemainder? dividend divisor).getD 0).toInt =
      dividend.toInt.tmod divisor.toInt := by
  cases found : truncatedWordRemainder? dividend divisor with
  | some rest => exact toInt_of_truncatedWordRemainder? found
  | none =>
    obtain ⟨-, unit⟩ := (truncatedWordRemainder?_eq_none_iff nonzero).mp found
    rw [unit, Int.tmod_neg, Int.tmod_one]
    rfl

/-- The sum of two words of different signs does not wrap around. -/
theorem toInt_add_of_signs (signs : ¬ (rest.toInt < 0 ↔ divisor.toInt < 0)) :
    (rest + divisor).toInt = rest.toInt + divisor.toInt := by
  have bounds := toInt_bounds rest
  have bounds' := toInt_bounds divisor
  simp only [leastWord, greatestWord] at bounds bounds'
  rw [Int64.toInt_add]
  exact Int.bmod_eq_of_le (by omega) (by omega)

/-- Words are zero, and negative, when their integers are. -/
theorem correction_iff (rest divisor : Int64) :
    (rest != 0 && decide (rest < 0) != decide (divisor < 0)) = true ↔
      rest.toInt ≠ 0 ∧ ¬ (rest.toInt < 0 ↔ divisor.toInt < 0) := by
  have zero : rest = 0 ↔ rest.toInt = 0 := Int64.toInt_inj.symm
  rw [Bool.and_eq_true, bne_iff_ne, bne_iff_ne, ne_eq, ne_eq, decide_eq_decide, zero,
    Int64.lt_iff_toInt_lt, Int64.lt_iff_toInt_lt]
  rfl

/-- The remainder of words is the exact one of the floored quotient. -/
theorem toInt_flooredWordRemainder (nonzero : divisor ≠ 0) :
    (flooredWordRemainder dividend divisor).toInt = dividend.toInt.fmod divisor.toInt := by
  have apart : divisor.toInt ≠ 0 := fun zero => nonzero (Int64.toInt_inj.mp zero)
  have rest : ((truncatedWordRemainder? dividend divisor).getD 0).toInt =
      dividend.toInt.tmod divisor.toInt := toInt_truncatedWordRemainder?_getD nonzero
  rw [← tmod_corrected dividend.toInt apart, ← rest, flooredWordRemainder]
  simp only [← correction_iff]
  split
  · rename_i corrected
    exact toInt_add_of_signs ((correction_iff _ _).mp corrected).2
  · rfl

/-- No step to a remainder of words leaves their range. -/
theorem staysInside (nonzero : divisor ≠ 0) : StaysInside dividend divisor where
  exact _ found := toInt_of_truncatedWordRemainder? found
  missing := truncatedWordRemainder?_eq_none_iff nonzero
  nothing none := by
    rw [← toInt_truncatedWordRemainder?_getD nonzero, none]
    rfl
  sum _ _ _ signs := toInt_add_of_signs signs

end Numeric

end Scriptlet
