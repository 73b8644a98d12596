import Scriptlet.Proofs.Numeric.ExactFloat
import Scriptlet.Proofs.Numeric.Overflow
import Mathlib.Algebra.Order.Field.Power
import Mathlib.Data.Option.NAry
import Mathlib.Order.Compare
import Mathlib.Tactic.GCongr
import Mathlib.Tactic.Ring

/-!
The order of floats is that of their ranks. The bits of a float are compared sign first, then
exponent, then significand; that is the order of values because significands are normalized.
-/

namespace Scriptlet.Numeric

open Float.Model Float.Model.UnpackedFloat

section Order

variable {significand significand' : Nat} {exponent exponent' : Int}

/-- Of two normalized significands the one at the lesser exponent is less. -/
theorem Normalized.lt_of_exponent_lt (normalized : Normalized significand exponent)
    (normalized' : Normalized significand' exponent') (less : exponent < exponent') :
    (significand * 2 ^ exponent : ℚ) < significand' * 2 ^ exponent' := by
  -- Behind the lowest exponent every significand has its leading bit.
  have full : (0x10000000000000 : ℚ) ≤ significand' := by
    have low := normalized.low
    exact_mod_cast normalized'.full.resolve_right (by omega)
  have narrow : (significand : ℚ) < 0x20000000000000 := by exact_mod_cast normalized.narrow
  calc (significand * 2 ^ exponent : ℚ) < 0x20000000000000 * 2 ^ exponent := by gcongr
    _ = 0x10000000000000 * 2 ^ (exponent + 1) := by rw [zpow_add_one₀ two_ne_zero]; ring
    _ ≤ significand' * 2 ^ exponent' := by
      gcongr
      · exact one_le_two
      · exact less

/-- Floats of one sign are ordered by their exponents first, and then by their significands. -/
theorem Normalized.compares (normalized : Normalized significand exponent)
    (normalized' : Normalized significand' exponent') :
    ((compare exponent exponent').then (compare significand significand')).Compares
      (significand * 2 ^ exponent : ℚ) (significand' * 2 ^ exponent') := by
  -- The significands are asked only where the exponents are the same.
  rcases lt_trichotomy exponent exponent' with less | rfl | greater
  · rw [compare_lt_iff_lt.mpr less]
    exact normalized.lt_of_exponent_lt normalized' less
  · have positive : (0 : ℚ) < 2 ^ exponent := by positivity
    rw [compare_eq_iff_eq.mpr rfl]
    rcases lt_trichotomy significand significand' with less | rfl | greater
    · rw [compare_lt_iff_lt.mpr less]
      exact mul_lt_mul_of_pos_right (Nat.cast_lt.mpr less) positive
    · rw [compare_eq_iff_eq.mpr rfl]
      exact rfl
    · rw [compare_gt_iff_gt.mpr greater]
      exact mul_lt_mul_of_pos_right (Nat.cast_lt.mpr greater) positive
  · rw [compare_gt_iff_gt.mpr greater]
    exact normalized'.lt_of_exponent_lt normalized greater

/-- Ranks among the rationals are ordered as those are. -/
theorem compare_coe_rank (one other : ℚ) :
    compare (one : Rank) (other : Rank) = compare one other := by
  rw [compare_iff]
  have order : (compare one other).Compares one other := (compare_iff ..).mp rfl
  generalize compare one other = answer at order
  cases answer with
  | lt => exact WithBotTop.coe_lt_coe.mpr order
  | eq => exact congrArg WithBotTop.coe order
  | gt => exact WithBotTop.coe_lt_coe.mpr order

/-- Opposite values are in the opposite order. -/
theorem compares_neg {order : Ordering} {one other : ℚ} (compares : order.Compares one other) :
    order.swap.Compares (-one) (-other) := by
  rw [Ordering.compares_swap]
  cases order with
  | lt => exact neg_lt_neg compares
  | eq => exact congrArg Neg.neg (Eq.symm compares)
  | gt => exact neg_lt_neg compares

/-- The value of a float is positive or negative as its sign says. -/
theorem apply_mul (sign : Sign) (significand : Nat) (exponent : Int) :
    (sign.apply significand * 2 ^ exponent : ℚ) =
      match sign with
      | .positive => significand * 2 ^ exponent
      | .negative => -(significand * 2 ^ exponent) := by
  cases sign with
  | positive => rfl
  | negative =>
    show ((-(significand : Int) : Int) * 2 ^ exponent : ℚ) = _
    rw [Int.cast_neg, Int.cast_natCast, neg_mul]

/-- A float that is not zero is on the side of zero that its sign tells. -/
theorem compare_zero (sign : Sign) (positive : 0 < significand) (exponent : Int) :
    compare (sign.apply significand * 2 ^ exponent : ℚ) 0 =
      match sign with
      | .positive => .gt
      | .negative => .lt := by
  have ahead : (0 : ℚ) < significand * 2 ^ exponent :=
    mul_pos (Nat.cast_pos.mpr positive) (zpow_pos two_pos exponent)
  rw [apply_mul]
  cases sign with
  | positive => exact compare_gt_iff_gt.mpr ahead
  | negative => exact compare_lt_iff_lt.mpr (neg_neg_of_pos ahead)

/-- Finite floats are ordered as their values. -/
theorem Normalized.compare_finite (normalized : Normalized significand exponent)
    (normalized' : Normalized significand' exponent') (sign sign' : Sign)
    (positive : 0 < significand) (positive' : 0 < significand') :
    UnpackedFloat.compare (.finite sign significand exponent positive)
        (.finite sign' significand' exponent' positive') =
      some (compare (sign.apply significand * 2 ^ exponent : ℚ)
        (sign'.apply significand' * 2 ^ exponent')) := by
  have order := normalized.compares normalized'
  have ahead : (0 : ℚ) < significand * 2 ^ exponent :=
    mul_pos (Nat.cast_pos.mpr positive) (zpow_pos two_pos exponent)
  have ahead' : (0 : ℚ) < significand' * 2 ^ exponent' :=
    mul_pos (Nat.cast_pos.mpr positive') (zpow_pos two_pos exponent')
  -- Floats of different signs are on different sides of zero.
  rw [apply_mul, apply_mul, eq_comm]
  cases sign with
  | positive =>
    cases sign' with
    | positive => exact congrArg some ((compare_iff ..).mpr order)
    | negative =>
      exact congrArg some (compare_gt_iff_gt.mpr ((neg_neg_of_pos ahead').trans ahead))
  | negative =>
    cases sign' with
    | positive =>
      exact congrArg some (compare_lt_iff_lt.mpr ((neg_neg_of_pos ahead).trans ahead'))
    | negative => exact congrArg some ((compare_iff ..).mpr (compares_neg order))

/-- Canonical floats are ordered as their ranks, and have no order if one has no rank. -/
theorem Canonical.compare_eq {float float' : UnpackedFloat} (canonical : Canonical float)
    (canonical' : Canonical float') :
    float.compare float' = Option.map₂ compare (rank? float) (rank? float') := by
  -- Beside an infinity or a zero the sign of the other float decides.
  cases canonical with
  | notANumber => rfl
  | infinity sign =>
    cases canonical' with
    | notANumber => cases sign <;> rfl
    | infinity sign' => cases sign <;> cases sign' <;> rfl
    | zero sign' => cases sign <;> rfl
    | finite normalized' => cases sign <;> rfl
  | zero sign =>
    cases canonical' with
    | notANumber => rfl
    | infinity sign' => cases sign' <;> rfl
    | zero sign' => rfl
    | @finite sign' significand' exponent' positive' normalized' =>
      show _ = some (compare ((0 : ℚ) : Rank) _)
      rw [compare_coe_rank, Std.OrientedOrd.eq_swap,
        compare_zero sign' positive' exponent']
      cases sign' <;> rfl
  | @finite sign significand exponent positive normalized =>
    cases canonical' with
    | notANumber => rfl
    | infinity sign' => cases sign' <;> rfl
    | zero sign' =>
      show _ = some (compare _ ((0 : ℚ) : Rank))
      rw [compare_coe_rank, compare_zero sign positive exponent]
      cases sign <;> rfl
    | finite normalized' =>
      rw [normalized.compare_finite normalized']
      exact congrArg some (compare_coe_rank _ _).symm

end Order

/-- The rank of a float. -/
def rankOf? (x : Float) : Option Rank :=
  rank? x.toModel.unpack

/-- Floats are ordered as their ranks, and have no order if one has no rank. -/
theorem compareFloats_eq (x y : Float) :
    compareFloats x y = Option.map₂ compare (rankOf? x) (rankOf? y) := by
  -- The three questions that are asked in turn are answered by one comparison of ranks.
  have order (x y : Float) : x.toModel.unpack.compare y.toModel.unpack =
      Option.map₂ compare (rankOf? x) (rankOf? y) :=
    (canonical_unpack x).compare_eq (canonical_unpack y)
  have less (x y : Float) :
      x < y ↔ Option.map₂ compare (rankOf? x) (rankOf? y) = some .lt := by
    rw [float_lt_iff, ← order]
    show (x.toModel.unpack.compare y.toModel.unpack == some .lt) = true ↔ _
    rw [beq_iff_eq]
  have equal : (x == y) = true ↔ Option.map₂ compare (rankOf? x) (rankOf? y) = some .eq := by
    rw [← order]
    show (x.toModel.unpack.compare y.toModel.unpack == some .eq) = true ↔ _
    rw [beq_iff_eq]
  unfold compareFloats
  simp only [less, equal]
  cases rankOf? x with
  | none =>
    simp only [Option.map₂_none_left, Option.map₂_none_right]
    rfl
  | some i =>
    cases rankOf? y with
    | none => rfl
    | some j =>
      simp only [Option.map₂_some_some, Option.some_inj, compare_lt_iff_lt, compare_eq_iff_eq]
      rcases lt_trichotomy i j with first | same | second
      · rw [if_pos first, compare_lt_iff_lt.mpr first]
      · rw [if_neg same.not_lt, if_neg same.not_gt, if_pos same, compare_eq_iff_eq.mpr same]
      · rw [if_neg second.not_gt, if_pos second, compare_gt_iff_gt.mpr second]

/-- A float has a rank unless it is no number. -/
theorem rankOf?_eq_none_iff (x : Float) : rankOf? x = none ↔ x.isNaN = true := by
  show rank? x.toModel.unpack = none ↔ x.toModel.unpack.isNaN = true
  generalize x.toModel.unpack = unpacked
  cases unpacked with
  | infinity sign => cases sign <;> exact ⟨nofun, nofun⟩
  | notANumber => exact iff_of_true rfl rfl
  | zero sign => exact ⟨nofun, nofun⟩
  | finite => exact ⟨nofun, nofun⟩

end Scriptlet.Numeric
