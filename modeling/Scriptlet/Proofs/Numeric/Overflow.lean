import Scriptlet.Numeric.Binary64
import Scriptlet.Proofs.Numeric.Rounding

/-!
Sums of two integers that do not fit. No integer is beyond the sum of the floats of two integers
whose own sum leaves the range: rounding three times does not fall back behind the end of it.
-/

namespace Scriptlet.Numeric

open Float.Model Float.Model.UnpackedFloat

/-- Of two multiples of a unit, one that is half a unit less at most is not less. -/
theorem mul_le_mul_of_half {unit least reached : Nat} (positive : 0 < unit)
    (half : 2 * (unit * least) ≤ 2 * (unit * reached) + unit) : unit * least ≤ unit * reached := by
  have scaled : unit * (2 * least) ≤ unit * (2 * reached + 1) := by
    rw [Nat.mul_add, Nat.mul_left_comm unit 2, Nat.mul_left_comm unit 2, Nat.mul_one]
    exact half
  have := Nat.le_of_mul_le_mul_left scaled positive
  exact Nat.mul_le_mul_left unit (by omega)

/-- What two floats make up together, in units of the 52nd place, if the counts leave the range. -/
def leastTotal : Nat := 0x3FFFFFFFFFFFFF * 2 ^ 61

section Sum

variable {count count' significand significand' place place' : Nat}

/-- A float that is near to a count is not less than the power of two that the count begins with. -/
theorem Nearby.le_total (nearby : Nearby count significand place) (full : significand.log2 = 52) :
    2 ^ (52 + count.log2) ≤ significand * 2 ^ place := by
  have least := (bounds_of_full full).1
  have further : count.log2 ≤ place := by
    rcases nearby.first with same | ⟨next, _⟩ <;> omega
  calc 2 ^ (52 + count.log2) = 2 ^ 52 * 2 ^ count.log2 := Nat.pow_add _ _ _
    _ ≤ significand * 2 ^ place := Nat.mul_le_mul least (Nat.pow_le_pow_right (by decide) further)

/-- A greater and a lesser count that leave the range together. -/
theorem Nearby.total_of_lt (nearby : Nearby count significand place)
    (nearby' : Nearby count' significand' place') (first : count.log2 = 62)
    (less : count'.log2 ≤ 61) (beyond : 0x8000000000000000 ≤ count + count') :
    leastTotal ≤ significand * 2 ^ place + significand' * 2 ^ place' := by
  -- Everything is a multiple of the power of two that the lesser count begins with.
  have multiple (significand place : Nat) (further : count'.log2 ≤ place) :
      significand * 2 ^ place = 2 ^ count'.log2 * (significand * 2 ^ (place - count'.log2)) := by
    rw [Nat.mul_left_comm, ← Nat.pow_add, Nat.add_sub_cancel' further]
  have further : count'.log2 ≤ place := by
    rcases nearby.first with same | ⟨next, _⟩ <;> omega
  have further' : count'.log2 ≤ place' := by
    rcases nearby'.first with same | ⟨next, _⟩ <;> omega
  have missing := nearby.missing
  have missing' := nearby'.missing
  rw [first] at missing
  have short : 2 * leastTotal ≤ 2 * (significand * 2 ^ place + significand' * 2 ^ place') +
      2 ^ count'.log2 := by
    unfold leastTotal
    omega
  rw [leastTotal, multiple _ 61 less, multiple significand place further,
    multiple significand' place' further', ← Nat.mul_add] at short ⊢
  exact mul_le_mul_of_half (Nat.two_pow_pos _) short

/-- Two counts that leave the range together have floats that make up almost as much. -/
theorem Nearby.total (nearby : Nearby count significand place)
    (nearby' : Nearby count' significand' place') (full : significand.log2 = 52)
    (full' : significand'.log2 = 52) (beyond : 0x8000000000000000 ≤ count + count') :
    leastTotal ≤ significand * 2 ^ place + significand' * 2 ^ place' := by
  have least := nearby.le_total full
  have least' := nearby'.le_total full'
  have narrow {count width : Nat} (less : count.log2 < width) : count < 2 ^ width :=
    Nat.lt_of_lt_of_le Nat.lt_log2_self (Nat.pow_le_pow_right (by decide) less)
  have wide (width : Nat) (more : width ≤ count.log2) :
      2 ^ (52 + width) ≤ significand * 2 ^ place :=
    Nat.le_trans (Nat.pow_le_pow_right (by decide) (by omega)) least
  have wide' (width : Nat) (more : width ≤ count'.log2) :
      2 ^ (52 + width) ≤ significand' * 2 ^ place' :=
    Nat.le_trans (Nat.pow_le_pow_right (by decide) (by omega)) least'
  -- Counts of 62 bits leave no room, and two of 63 bits are enough by themselves.
  rcases Nat.lt_or_ge count.log2 62 with less | more
  · rcases Nat.lt_or_ge count'.log2 62 with less' | more'
    · have := narrow less
      have := narrow less'
      omega
    · rcases Nat.eq_or_lt_of_le more' with first | large
      · rw [Nat.add_comm]
        exact nearby'.total_of_lt nearby first.symm (by omega) (by omega)
      · have := wide' 63 large
        unfold leastTotal
        omega
  · rcases Nat.lt_or_ge count'.log2 62 with less' | more'
    · rcases Nat.eq_or_lt_of_le more with first | large
      · exact nearby.total_of_lt nearby' first.symm (by omega) beyond
      · have := wide 63 large
        unfold leastTotal
        omega
    · have := wide 62 more
      have := wide' 62 more'
      unfold leastTotal
      omega

end Sum

section Add

variable {sign : Sign} {significand significand' place place' : Nat} {float float' : UnpackedFloat}

end Add

section Words

variable {sign : Sign} {word word' bound : Int64} {count count' limit : Nat}

/-- What a float has of a count in the range of words lies in it, or is its very end. -/
theorem Nearby.inside {significand place : Nat} (nearby : Nearby limit significand place)
    (full : significand.log2 = 52) (inside : limit ≤ 0x8000000000000000) :
    place < 63 ∨ place = 63 ∧ significand = 0x10000000000000 := by
  rcases Nat.lt_or_eq_of_le inside with less | rfl
  · have width : limit.log2 < 63 := log2_lt_of_lt (by decide) less
    rcases nearby.first with same | ⟨next, carried⟩ <;> omega
  · -- The end of the range is a float.
    have width : Nat.log2 0x8000000000000000 = 63 := by decide
    have least := (bounds_of_full full).1
    have excess := nearby.excess
    rw [width] at excess
    rcases nearby.first with same | ⟨next, carried⟩
    · rw [width] at same
      rw [same] at excess ⊢
      omega
    · rw [width] at next
      rw [next, carried] at excess
      omega

/-- Floats are ordered as what they are unpacked to. -/
theorem float_lt_iff (float float' : Float) :
    float < float' ↔ float.toModel.unpack.lt float'.toModel.unpack = true :=
  decide_eq_true_iff

end Words

end Scriptlet.Numeric
