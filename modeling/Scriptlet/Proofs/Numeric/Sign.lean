import Scriptlet.Numeric.Word

/-!
Rounding an integer to a float keeps its sign, and no integer but zero is rounded to zero. Both rest
on one property that every step of the rounding keeps: a float that is not less than one.
-/

namespace Scriptlet.Numeric

open Float.Model Float.Model.UnpackedFloat

/--
A float with a sign whose magnitude is not less than one: it is infinite, or has a significand of 53
bits and an exponent that does not make a fraction of it.
-/
inductive Whole (sign : Sign) : UnpackedFloat → Prop where
  | infinity : Whole sign (.infinity sign)
  | finite {significand : Nat} {exponent : Int} (positive : 0 < significand)
      (full : significand.log2 = 52) (large : -52 ≤ exponent) :
      Whole sign (.finite sign significand exponent positive)

/-- A significand of 53 bits, before it is rounded, with such an exponent. -/
structure Shifted (result : ExtendedMantissa × Int) : Prop where
  least : 0x10000000000000 ≤ result.1.mantissa
  most : result.1.mantissa < 0x20000000000000
  large : -52 ≤ result.2

/-- A significand has 53 bits when it lies between two powers of two. -/
theorem log2_eq_52_iff {significand : Nat} (positive : 0 < significand) :
    significand.log2 = 52 ↔ 0x10000000000000 ≤ significand ∧ significand < 0x20000000000000 :=
  Nat.log2_eq_iff (Nat.ne_of_gt positive)

/-- Where the last place of a number is: its 53rd bit, or that of the smallest numbers. -/
theorem targetExponent_eq (total : Int) :
    Format.binary64.targetExponent total = max (total - 53) (-1074) := rfl

/-- A shift of a significand with residual bits shifts the significand. -/
theorem shifted_mantissa (extended : ExtendedMantissa) (shift : Nat) :
    (extended >>> shift).mantissa = extended.mantissa >>> shift := by
  -- One more place is one more division by two.
  induction shift with
  | zero => rfl
  | succ shift ih =>
    calc (extended >>> (shift + 1)).mantissa = (extended >>> shift).mantissa / 2 := rfl
      _ = extended.mantissa >>> (shift + 1) := by rw [ih, Nat.shiftRight_succ]

/-- Rounding leaves a significand as it is, or adds one to it. -/
theorem roundedMantissa_bounds (extended : ExtendedMantissa) :
    extended.mantissa ≤ extended.roundedMantissa ∧
      extended.roundedMantissa ≤ extended.mantissa + 1 := by
  -- Which of the two it does is a matter of the bits behind the significand.
  obtain ⟨mantissa, _ | _, _ | _⟩ := extended <;>
    simp only [ExtendedMantissa.roundedMantissa, ExtendedMantissa.accuracy,
      Accuracy.roundToNearestEven] <;> omega

section Rounding

variable {mantissa : Nat} {exponent : Int}

/-- The 53 greatest bits of a significand that has so many. -/
theorem greatest_bits (wide : 52 ≤ mantissa.log2) :
    0x10000000000000 ≤ mantissa >>> (mantissa.log2 - 52) ∧
      mantissa >>> (mantissa.log2 - 52) < 0x20000000000000 := by
  have nonzero : mantissa ≠ 0 := by
    rintro rfl
    exact absurd wide (by decide)
  have ⟨least, most⟩ := (Nat.log2_eq_iff nonzero).mp rfl
  have positive : 0 < 2 ^ (mantissa.log2 - 52) := Nat.two_pow_pos _
  have low : 2 ^ 52 * 2 ^ (mantissa.log2 - 52) = 2 ^ mantissa.log2 := by
    rw [← Nat.pow_add, Nat.add_sub_cancel' wide]
  have high : 2 ^ 53 * 2 ^ (mantissa.log2 - 52) = 2 ^ (mantissa.log2 + 1) := by
    rw [← Nat.pow_add]
    exact congrArg _ (by omega)
  rw [Nat.shiftRight_eq_div_pow]
  constructor
  · exact (Nat.le_div_iff_mul_le positive).mpr (low ▸ least)
  · exact (Nat.div_lt_iff_lt_mul positive).mpr (high ▸ most)

/-- Far from the least exponent, the width of a significand alone decides on its shift. -/
theorem targetShift_eq (wide : 52 ≤ mantissa.log2) (normal : -1022 ≤ exponent + mantissa.log2) :
    (Format.binary64.targetExponent (totalExponent mantissa exponent) - exponent).toNat =
      mantissa.log2 - 52 := by
  rw [targetExponent_eq]
  unfold totalExponent
  omega

/-- A number that is not less than one is shifted to a significand of 53 bits. -/
theorem shiftToTarget (wide : 52 ≤ mantissa.log2) (large : 0 ≤ exponent + mantissa.log2) :
    Shifted (shiftToTargetExponent .binary64 mantissa exponent .exact) := by
  have ⟨least, most⟩ := greatest_bits wide
  have normal : -1022 ≤ exponent + mantissa.log2 := by omega
  simp only [shiftToTargetExponent, shiftToExponent, targetShift_eq wide normal]
  constructor
  · rwa [shifted_mantissa]
  · rwa [shifted_mantissa]
  · omega

/-- Rounding makes no number vanish that is not less than one, and none of its bits is missing. -/
theorem roundWithAccuracy_whole (sign : Sign) (wide : 52 ≤ mantissa.log2)
    (large : 0 ≤ exponent + mantissa.log2) :
    Whole sign (roundWithAccuracy .binary64 sign mantissa exponent .exact) := by
  let first := shiftToTargetExponent .binary64 mantissa exponent .exact
  let second := shiftToTargetExponent .binary64 first.1.roundedMantissa first.2 .exact
  have shifted : Shifted first := shiftToTarget wide large
  have least := shifted.least
  have large := shifted.large
  have rounded := roundedMantissa_bounds first.1
  have wider : 52 ≤ first.1.roundedMantissa.log2 := (Nat.le_log2 (by omega)).mpr (by omega)
  -- Rounding up may make the significand one bit wider, and then it is shifted once more.
  have shifted' : Shifted second := shiftToTarget wider (by omega)
  have positive : 0 < second.1.mantissa := Nat.lt_of_lt_of_le (by decide) shifted'.least
  show Whole sign (if empty : second.1.mantissa = 0 then .zero sign
    else .finite sign second.1.mantissa second.2 (Nat.pos_of_ne_zero empty))
  rw [dif_neg (Nat.ne_of_gt positive)]
  have full := (log2_eq_52_iff positive).mpr ⟨shifted'.least, shifted'.most⟩
  exact .finite positive full shifted'.large

end Rounding

/-- Unpacking finds the sign that was packed. -/
theorem unpackSign_packComponents {format : Format} (sign : Sign)
    (exponent : BitVec format.exponentBits)
    (mantissa : BitVec format.mantissaBitsWithoutImplicit) :
    unpackSign (packComponents format sign exponent mantissa) = sign.toBitVec := by
  -- There is only one bit, in front of the others.
  ext i inside
  obtain rfl : i = 0 := by omega
  show ((BitVec.extractLsb _ _ (sign.toBitVec ++ exponent ++ mantissa)).cast _)[0] = _
  simp [BitVec.getLsbD_append, BitVec.getElem_append]

/-- A significand with its implicit bit has 53 bits. -/
theorem log2_implicit (mantissa : BitVec 52) : (1#1 ++ mantissa).toNat.log2 = 52 := by
  have sum : (1#1 ++ mantissa).toNat = 2 ^ 52 + mantissa.toNat := by
    change 2 ^ 52 ||| mantissa.toNat = _
    rw [Nat.or_comm, Nat.or_two_pow_eq_add_of_lt mantissa.isLt, Nat.add_comm]
  have inside := mantissa.isLt
  exact (log2_eq_52_iff (by omega)).mpr (by omega)

/-- Bits with the exponent field of a number that is not less than one are unpacked as one. -/
theorem whole_unpack {packed : BitVec 64} (large : 1023 ≤ (@unpackExponent .binary64 packed).toNat)
    (inside : (@unpackExponent .binary64 packed).toNat < 2047) :
    Whole (Sign.ofBitVec (@unpackSign .binary64 packed)) (UnpackedFloat.unpack .binary64 packed) := by
  -- The field is neither that of zeros and small numbers nor that of infinities.
  have notEmpty : @unpackExponent .binary64 packed ≠ 0#11 := fun same => by
    have empty : (0#11 : BitVec 11).toNat = 0 := rfl
    rw [same] at large
    omega
  have notFull : @unpackExponent .binary64 packed ≠ -1#11 := fun same => by
    have full : (-1#11 : BitVec 11).toNat = 2047 := rfl
    rw [same] at inside
    omega
  show Whole _ (if @unpackExponent .binary64 packed = -1#11 then _ else
    if @unpackExponent .binary64 packed = 0#11 then _ else _)
  rw [if_neg notFull, if_neg notEmpty]
  refine .finite _ (log2_implicit _) ?_
  show -52 ≤ ((@unpackExponent .binary64 packed).toNat : Int) - (1023 + 52)
  omega

/-- What is not less than one is so after it was packed. -/
theorem Whole.unpack_pack {sign : Sign} {float : UnpackedFloat} (whole : Whole sign float) :
    Whole sign (Float.Model.pack float).unpack := by
  have infinite : UnpackedFloat.unpack .binary64 (packedInfinity .binary64 sign) =
      .infinity sign := by
    cases sign <;> rfl
  have signs : Sign.ofBitVec sign.toBitVec = sign := by cases sign <;> rfl
  cases whole with
  | infinity =>
    show Whole sign (UnpackedFloat.unpack .binary64 (packedInfinity .binary64 sign))
    rw [infinite]
    exact .infinity
  | @finite significand exponent positive full large =>
    let field : Nat := (exponent + (1023 : Nat) + (52 : Nat)).toNat
    show Whole sign (UnpackedFloat.unpack .binary64
      (if 2048 ≤ field + 1 then packedInfinity .binary64 sign
      else if significand.log2 + 1 = 53 then
        packComponents .binary64 sign (BitVec.ofNat 11 field) (BitVec.ofNat 52 significand)
      else packComponents .binary64 sign 0#11 (BitVec.ofNat 52 significand)))
    have least : 1023 ≤ field := by omega
    by_cases most : 2048 ≤ field + 1
    · -- What is too large for the exponent field is packed as an infinity.
      rw [if_pos most, infinite]
      exact .infinity
    · have value : (BitVec.ofNat 11 field).toNat = field := by
        rw [BitVec.toNat_ofNat]
        exact Nat.mod_eq_of_lt (by omega)
      have whole := @whole_unpack (packComponents .binary64 sign (BitVec.ofNat 11 field)
        (BitVec.ofNat 52 significand))
      rw [unpackExponent_packComponents, unpackSign_packComponents, signs, value] at whole
      rw [if_neg most, if_pos (by omega)]
      exact whole least (by omega)

/-- What is not less than one is so times one. -/
theorem Whole.mul_one {sign : Sign} {float : UnpackedFloat} (whole : Whole sign float) :
    Whole sign (UnpackedFloat.mul .binary64 float
      (.finite .positive 0x10000000000000 (-52) (by decide))) := by
  have signs : sign * .positive = sign := by cases sign <;> rfl
  cases whole with
  | infinity =>
    show Whole sign (.infinity (sign * .positive))
    rw [signs]
    exact .infinity
  | @finite significand exponent positive full large =>
    show Whole sign (roundWithAccuracy .binary64 (sign * .positive)
      (significand * 0x10000000000000) (exponent + -52) .exact)
    rw [signs]
    have width : (significand * 0x10000000000000).log2 = 104 := by
      have bounds := (log2_eq_52_iff positive).mp full
      exact (Nat.log2_eq_iff (by omega)).mpr (by omega)
    exact roundWithAccuracy_whole sign (by omega) (by omega)

/-- What is not less than one is so with the opposite sign. -/
theorem Whole.neg {sign : Sign} {float : UnpackedFloat} (whole : Whole sign float) :
    Whole (-sign) float.neg := by
  cases whole with
  | infinity => exact .infinity
  | finite positive full large => exact .finite positive full large

/-- The sign of a float whose magnitude is not less than one decides how it compares with zero. -/
theorem Whole.nonneg_iff {sign : Sign} {float : Float} (whole : Whole sign float.toModel.unpack) :
    (0 : Float) ≤ float ↔ sign = .positive := by
  have order : (0 : Float) ≤ float ↔
      UnpackedFloat.le (0 : Float).toModel.unpack float.toModel.unpack = true :=
    decide_eq_true_iff
  have zero : (0 : Float).toModel.unpack = .zero .positive := by rfl
  rw [order, zero]
  generalize float.toModel.unpack = unpacked at whole
  cases sign with
  | negative => cases whole <;> exact ⟨fun nonneg => absurd nonneg Bool.false_ne_true, nofun⟩
  | positive => cases whole <;> exact ⟨fun _ => rfl, fun _ => rfl⟩

/-- The width of a significand that is shifted to the left. -/
theorem log2_shiftLeft {significand : Nat} (positive : 0 < significand) (shift : Nat) :
    (significand <<< shift).log2 = significand.log2 + shift := by
  have ⟨least, most⟩ := (Nat.log2_eq_iff (Nat.ne_of_gt positive)).mp rfl
  have scale : 0 < 2 ^ shift := Nat.two_pow_pos _
  rw [Nat.shiftLeft_eq, Nat.log2_eq_iff (Nat.ne_of_gt (Nat.mul_pos positive scale))]
  constructor
  · rw [Nat.pow_add]
    exact Nat.mul_le_mul_right _ least
  · rw [Nat.add_right_comm, Nat.pow_add]
    exact Nat.mul_lt_mul_of_pos_right most scale

/-- Converting a positive count makes a float that is not less than one. -/
theorem whole_ofNat {count : Nat} (positive : 0 < count) :
    Whole .positive (UnpackedFloat.ofNat .binary64 count) := by
  have order : compare (count : Int) 0 = .gt := by
    simp only [compare, compareOfLessAndEq]
    rw [if_neg (by omega), if_neg (by omega)]
  -- A count of few bits is shifted to the left before it is rounded.
  have width := log2_shiftLeft positive
  simp only [UnpackedFloat.ofNat, UnpackedFloat.ofInt, UnpackedFloat.normalize, order,
    UnpackedFloat.round, decreaseExponent, Int.toNat_natCast]
  apply roundWithAccuracy_whole
  · rw [width]
    rw [targetExponent_eq]
    unfold totalExponent
    omega
  · rw [width]
    omega

/-- A positive integer that is multiplied by no power of ten is rounded with 53 bits behind it. -/
theorem ofScientific_eq {count : Nat} (positive : 0 < count) :
    UnpackedFloat.ofScientific .binary64 count 0 =
      roundWithAccuracy .binary64 .positive (count <<< 53) (-53) .exact := by
  have bounded : ¬ (0 : Int) < -(2 ^ 11 + count.log2) := by omega
  have scaled : UnpackedFloat.ofScientific .binary64 count 0 =
      roundWithAccuracy .binary64 .positive ((count <<< 53) * 1) (-53 + 0) .exact :=
    (dif_neg (Nat.ne_of_gt positive)).trans
      ((if_neg (by decide)).trans ((if_neg bounded).trans (if_pos (by decide))))
  rw [scaled, Nat.mul_one, Int.add_zero]

/-- A positive integer as a float is not less than one. -/
theorem whole_float_ofNat {count : Nat} (positive : 0 < count) :
    Whole .positive (Float.ofNat count).toModel.unpack := by
  show Whole _ (Float.ofScientific count false 0).toModel.unpack
  unfold Float.ofScientific
  split
  · -- Small integers are converted, and multiplied by the power of ten that is one.
    rename_i small
    have inside : count.toUInt64.toNat = count := UInt64.toNat_ofNat_of_lt (by
      simp only [UInt64.size]
      omega)
    have one : (Float.exactlyRepresentablePowersOfTen[0]).toModel.unpack =
        .finite .positive 0x10000000000000 (-52) (by decide) := by rfl
    show Whole _ (Float.Model.pack (UnpackedFloat.mul .binary64
      (Float.Model.pack (UnpackedFloat.ofNat .binary64 count.toUInt64.toNat)).unpack
      (Float.exactlyRepresentablePowersOfTen[0]).toModel.unpack)).unpack
    rw [inside, one]
    exact (whole_ofNat positive).unpack_pack.mul_one.unpack_pack
  · -- Large integers are multiplied by a power of ten, which is one.
    show Whole _ (Float.Model.pack (UnpackedFloat.ofScientific .binary64 count 0)).unpack
    apply Whole.unpack_pack
    have width := log2_shiftLeft positive 53
    rw [ofScientific_eq positive]
    exact roundWithAccuracy_whole _ (by omega) (by omega)

/-- An integer is rounded to a float that is not negative if and only if it is not. -/
theorem toFloat_nonneg_iff (word : Int64) : (0 : Float) ≤ toFloat word ↔ 0 ≤ word.toInt := by
  -- A negative integer is the opposite of a positive one.
  unfold toFloat
  rcases word.toInt with count | count
  · rcases Nat.eq_zero_or_pos count with rfl | positive
    · exact ⟨fun _ => Int.le_refl _, fun _ => by decide⟩
    · have whole := (whole_float_ofNat positive).nonneg_iff
      exact ⟨fun _ => Int.natCast_nonneg _, fun _ => whole.mpr rfl⟩
  · have whole : Whole .negative (Float.neg (Float.ofNat (count + 1))).toModel.unpack :=
      (whole_float_ofNat (Nat.succ_pos count)).neg.unpack_pack
    constructor
    · intro nonneg
      exact absurd (whole.nonneg_iff.mp nonneg) nofun
    · intro nonneg
      exact absurd nonneg (Int.not_le.mpr (Int.negSucc_lt_zero count))

end Scriptlet.Numeric
