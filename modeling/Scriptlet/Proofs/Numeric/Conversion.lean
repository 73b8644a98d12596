import Scriptlet.Proofs.Numeric.FloatOrder
import Mathlib.Tactic.Linarith

/-!
An integer is converted to a float that no other float is nearer to. All floats from the integer's
first bit on are multiples of one unit, and the conversion is at most half of it away.
-/

namespace Scriptlet.Numeric

open Float.Model Float.Model.UnpackedFloat

/-- What an integer is converted to: the value of a float that no float's value is nearer to. -/
structure Rounds (word : Int64) (rounded : ℚ) : Prop where
  converted : valueOf? (toFloat word) = some rounded
  nearest {x : Float} {value : ℚ} (found : valueOf? x = some value) :
    |rounded - word.toInt| ≤ |value - word.toInt|

/-- A value is a multiple of the unit 52 places behind a place, or does not go beyond the place. -/
def Spaced (place : Int) (value : ℚ) : Prop :=
  (∃ multiple : Int, value = multiple * 2 ^ (place - 52)) ∨ |value| ≤ 2 ^ place

/-- The opposite value is spaced in the same way. -/
theorem Spaced.neg {place : Int} {value : ℚ} (spaced : Spaced place value) :
    Spaced place (-value) := by
  rcases spaced with ⟨multiple, rfl⟩ | inside
  · exact .inl ⟨-multiple, by rw [Int.cast_neg, neg_mul]⟩
  · exact .inr (by rwa [abs_neg])

/-- A normalized significand is spaced at any place. -/
theorem Normalized.spaced {significand : Nat} {exponent : Int}
    (normalized : Normalized significand exponent) (place : Int) :
    Spaced place (significand * 2 ^ exponent) := by
  rcases le_or_gt (place - 52) exponent with coarse | fine
  · -- The last place of the float is a multiple of the unit.
    obtain ⟨shift, rfl⟩ := Int.le.dest coarse
    refine .inl ⟨significand * 2 ^ shift, ?_⟩
    rw [zpow_add₀ two_ne_zero, zpow_natCast]
    push_cast
    ring
  · have narrow : (significand : ℚ) ≤ 2 ^ (53 : Int) := by
      have := normalized.narrow
      exact_mod_cast this.le
    refine .inr ?_
    rw [abs_of_nonneg (by positivity)]
    calc (significand * 2 ^ exponent : ℚ) ≤ 2 ^ (53 : Int) * 2 ^ (place - 53) := by
          gcongr
          · exact one_le_two
          · omega
      _ = 2 ^ place := by rw [← zpow_add₀ two_ne_zero, add_sub_cancel]

/-- Values of floats are spaced at any place. -/
theorem spaced_of_valueOf? {x : Float} {value : ℚ} (found : valueOf? x = some value)
    (place : Int) : Spaced place value := by
  -- Only zeros and finite floats have values.
  rw [← rank?_unpack_eq_coe_iff] at found
  have canonical := canonical_unpack x
  generalize x.toModel.unpack = unpacked at found canonical
  cases canonical with
  | notANumber => cases found
  | infinity sign => exact absurd found (rank?_infinity_ne sign value)
  | zero sign =>
    obtain rfl : 0 = value := Option.some.inj (coe_rank_inj.mp found)
    exact .inl ⟨0, by rw [Int.cast_zero, zero_mul]⟩
  | @finite sign significand exponent positive normalized =>
    obtain rfl : (sign.apply significand * 2 ^ exponent : ℚ) = value :=
      Option.some.inj (coe_rank_inj.mp found)
    rw [apply_mul]
    cases sign with
    | positive => exact normalized.spaced place
    | negative => exact (normalized.spaced place).neg

/-- No multiple of a unit is nearer to a value than one that is at most half a unit away. -/
theorem nearest_multiple {unit value : ℚ} {near other : Int}
    (half : |near * unit - value| ≤ unit / 2) :
    |near * unit - value| ≤ |other * unit - value| := by
  rcases eq_or_ne near other with rfl | apart
  · exact le_rfl
  · -- Two different multiples are a whole unit apart.
    have positive : 0 ≤ unit := by linarith [abs_nonneg (near * unit - value)]
    have whole : unit ≤ |near * unit - other * unit| := by
      have one : (1 : ℚ) ≤ |(near : ℚ) - other| := by
        exact_mod_cast Int.one_le_abs (sub_ne_zero.mpr apart)
      rw [← sub_mul, abs_mul, abs_of_nonneg positive]
      exact le_mul_of_one_le_left positive one
    have detour := abs_sub_le (near * unit) value (other * unit)
    rw [abs_sub_comm value] at detour
    linarith

section Count

variable {count significand place : Nat}

/-- What a float has of a count is at most half a unit away. -/
theorem Nearby.half (nearby : Nearby count significand place) :
    |(significand * 2 ^ (place - 52 : Int) : ℚ) - count| ≤ 2 ^ (count.log2 - 52 : Int) / 2 := by
  have missing : (2 * (0x10000000000000 * count) : ℚ) ≤
      2 * (significand * 2 ^ place) + 2 ^ count.log2 := by exact_mod_cast nearby.missing
  have excess : (2 * (significand * 2 ^ place) : ℚ) ≤
      2 * (0x10000000000000 * count) + 2 ^ count.log2 := by exact_mod_cast nearby.excess
  have scaled (exponent : Nat) :
      (2 ^ (exponent - 52 : Int) : ℚ) = 2 ^ exponent / 0x10000000000000 := by
    rw [zpow_sub₀ two_ne_zero, zpow_natCast]
    norm_num
  rw [scaled, scaled, abs_le]
  constructor <;> linarith

/-- What a float has of a count is a multiple of the unit. -/
theorem Nearby.multiple (nearby : Nearby count significand place) :
    ∃ multiple : Int, (significand * 2 ^ (place - 52 : Int) : ℚ) =
      multiple * 2 ^ (count.log2 - 52 : Int) := by
  have further : count.log2 ≤ place := by
    rcases nearby.first with same | ⟨next, _⟩ <;> omega
  obtain ⟨shift, rfl⟩ := Nat.exists_eq_add_of_le further
  refine ⟨significand * 2 ^ shift, ?_⟩
  have split : ((count.log2 + shift : Nat) - 52 : Int) = (count.log2 - 52) + shift := by omega
  rw [split, zpow_add₀ two_ne_zero, zpow_natCast]
  push_cast
  ring

/-- No spaced value is nearer to a count than what a float has of it. -/
theorem Nearby.nearest (nearby : Nearby count significand place) (positive : 0 < count) {value : ℚ}
    (spaced : Spaced count.log2 value) :
    |(significand * 2 ^ (place - 52 : Int) : ℚ) - count| ≤ |value - count| := by
  obtain ⟨near, same⟩ := nearby.multiple
  have half := nearby.half
  rw [same] at half ⊢
  rcases spaced with ⟨other, rfl⟩ | inside
  · exact nearest_multiple half
  · -- The power of two that the count begins with is not farther away, and is a multiple.
    have first : (2 ^ count.log2 : ℚ) ≤ count := by
      exact_mod_cast Nat.log2_self_le (Nat.ne_of_gt positive)
    have power : (2 ^ count.log2 : ℚ) = (0x10000000000000 : Int) * 2 ^ (count.log2 - 52 : Int) := by
      rw [zpow_sub₀ two_ne_zero, zpow_natCast, mul_div_left_comm]
      norm_num
    have below : value ≤ 2 ^ count.log2 := by
      rw [zpow_natCast] at inside
      exact (le_abs_self value).trans inside
    calc |(near * 2 ^ (count.log2 - 52 : Int) : ℚ) - count| ≤ |(2 ^ count.log2 : ℚ) - count| := by
          rw [power]
          exact nearest_multiple half
      _ = count - 2 ^ count.log2 := by rw [abs_sub_comm, abs_of_nonneg (sub_nonneg.mpr first)]
      _ ≤ |value - count| := by
          rw [abs_sub_comm]
          exact (sub_le_sub_left below _).trans (le_abs_self _)

end Count

/-- The rank of a float of 53 bits. -/
theorem Placed.rank?_eq {sign : Sign} {significand : Nat} {exponent : Int} {float : UnpackedFloat}
    (placed : Placed sign significand exponent float) :
    rank? float = some ((sign.apply significand * 2 ^ exponent : ℚ) : Rank) := by
  cases placed
  rfl

/-- An integer that is not zero is converted to the nearest float of its sign. -/
theorem exists_rounds_of_pos {word : Int64} {sign : Sign} {count : Nat} (positive : 0 < count)
    (whole : word.toInt = sign.apply count) : ∃ rounded, Rounds word rounded := by
  obtain ⟨significand, place, nearby, placed⟩ := placed_toFloat positive whole
  refine ⟨sign.apply significand * 2 ^ (place - 52 : Int),
    (rank?_unpack_eq_coe_iff ..).mp placed.rank?_eq, fun {_ value} found => ?_⟩
  have spaced := spaced_of_valueOf? found count.log2
  rw [whole, apply_mul]
  cases sign with
  | positive => exact nearby.nearest positive spaced
  | negative =>
    -- The distance to the opposite of the count is that of the opposite value to the count.
    have nearest := nearby.nearest positive spaced.neg
    have opposite (one other : ℚ) : |-one - other| = |one - -other| := by
      rw [← abs_neg]
      ring_nf
    show |_ - ((-(count : Int) : Int) : ℚ)| ≤ |_ - ((-(count : Int) : Int) : ℚ)|
    rw [Int.cast_neg, Int.cast_natCast, ← opposite, ← opposite, neg_neg]
    exact nearest

/-- Every integer is converted to the nearest float. -/
theorem exists_rounds (word : Int64) : ∃ rounded, Rounds word rounded := by
  rcases lt_trichotomy word.toInt 0 with negative | zero | positive
  · have whole : word.toInt = Sign.negative.apply word.toInt.natAbs := by
      simp only [Sign.apply]
      omega
    exact exists_rounds_of_pos (by omega) whole
  · obtain rfl : word = 0 := Int64.toInt_inj.mp zero
    refine ⟨0, (rank?_unpack_eq_coe_iff ..).mp rfl, fun found => ?_⟩
    show |(0 : ℚ) - ((0 : Int) : ℚ)| ≤ _
    rw [Int.cast_zero, sub_zero, abs_zero]
    exact abs_nonneg _
  · have whole : word.toInt = Sign.positive.apply word.toInt.natAbs := by
      simp only [Sign.apply]
      omega
    exact exists_rounds_of_pos (by omega) whole

end Scriptlet.Numeric
