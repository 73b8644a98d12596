import Mathlib.Algebra.Group.Nat.Defs
import Scriptlet.Proofs.Numeric.Sign

/-!
Rounding to the nearest float, ties to even: what the bits that were cut off say of the rest, how a
carry moves the last place, and what a float has of an integer that was rounded.
-/

namespace Scriptlet.Numeric

open Float.Model Float.Model.UnpackedFloat

/-- What was cut off a significand, in units of its last place, and what the two bits say of it. -/
def Residue (extended : ExtendedMantissa) (rest unit : Nat) : Prop :=
  match extended.roundBit, extended.stickyBit with
  | false, false => rest = 0
  | false, true => 0 < rest ∧ 2 * rest < unit
  | true, false => 2 * rest = unit
  | true, true => unit < 2 * rest

/--
The nearest quotient by a power of two: at most half a unit is missing or too much, and less than
half a unit is missing if the quotient is odd.
-/
structure Nearest (quotient mantissa shift : Nat) : Prop where
  missing : 2 * mantissa ≤ 2 * (quotient * 2 ^ shift) + 2 ^ shift
  excess : 2 * (quotient * 2 ^ shift) ≤ 2 * mantissa + 2 ^ shift
  odd (uneven : quotient % 2 = 1) : 2 * mantissa < 2 * (quotient * 2 ^ shift) + 2 ^ shift

/-- A finite float by its sign, its significand of 53 bits, and its exponent. -/
inductive Placed (sign : Sign) (significand : Nat) (exponent : Int) : UnpackedFloat → Prop where
  | finite (positive : 0 < significand) (full : significand.log2 = 52) :
    Placed sign significand exponent (.finite sign significand exponent positive)

/-- A significand that was rounded: it may have become one bit wider, and is then halved. -/
inductive Carried (exponent : Int) : Nat → Nat → Int → Prop where
  | same {quotient : Nat} (full : quotient.log2 = 52) : Carried exponent quotient quotient exponent
  | doubled : Carried exponent 0x20000000000000 0x10000000000000 (exponent + 1)

/-- A finite float of 53 bits has them. -/
theorem Placed.full {sign : Sign} {significand : Nat} {exponent : Int} {float : UnpackedFloat}
    (placed : Placed sign significand exponent float) : significand.log2 = 52 := by
  cases placed
  assumption

/-- What is left after a carry has 53 bits. -/
theorem Carried.full {quotient significand : Nat} {exponent exponent' : Int}
    (carried : Carried exponent quotient significand exponent') : significand.log2 = 52 := by
  cases carried with
  | same full => exact full
  | doubled => decide

/-- A significand of many bits is not zero. -/
theorem pos_of_wide {significand : Nat} (wide : 52 ≤ significand.log2) : 0 < significand := by
  rcases Nat.eq_zero_or_pos significand with rfl | positive
  · exact absurd wide (by decide)
  · exact positive

/-- A significand of 53 bits lies between two powers of two. -/
theorem bounds_of_full {significand : Nat} (full : significand.log2 = 52) :
    0x10000000000000 ≤ significand ∧ significand < 0x20000000000000 :=
  (log2_eq_52_iff (pos_of_wide (Nat.le_of_eq full.symm))).mp full

/-- A number below a power of two has no more bits than that allows. -/
theorem log2_lt_of_lt {number width : Nat} (positive : 0 < width) (less : number < 2 ^ width) :
    number.log2 < width := by
  rcases Nat.eq_zero_or_pos number with rfl | nonzero
  · exact positive
  · exact (Nat.log2_lt (Nat.ne_of_gt nonzero)).mpr less

/-! ### One rounding -/

/-- Shifting cuts off a rest, and the two bits behind the significand tell how large it is. -/
theorem shiftRight_residue (mantissa shift : Nat) :
    ∃ rest, rest < 2 ^ shift ∧
      mantissa =
        ((⟨mantissa, false, false⟩ : ExtendedMantissa) >>> shift).mantissa * 2 ^ shift + rest ∧
      Residue ((⟨mantissa, false, false⟩ : ExtendedMantissa) >>> shift) rest (2 ^ shift) := by
  -- The bit that is cut off by one more place counts as much as the unit before.
  induction shift with
  | zero => exact ⟨0, Nat.one_pos, by simp [shifted_mantissa], rfl⟩
  | succ shift ih =>
    obtain ⟨rest, inside, whole, residue⟩ := ih
    have next : (⟨mantissa, false, false⟩ : ExtendedMantissa) >>> (shift + 1) =
        ((⟨mantissa, false, false⟩ : ExtendedMantissa) >>> shift).shiftRightOne := rfl
    rw [next]
    generalize (⟨mantissa, false, false⟩ : ExtendedMantissa) >>> shift = extended at *
    obtain ⟨cut, round, sticky⟩ := extended
    simp only at whole
    have positive : 0 < 2 ^ shift := Nat.two_pow_pos _
    have wider : 2 ^ (shift + 1) = 2 ^ shift + 2 ^ shift := by rw [Nat.pow_succ, Nat.mul_two]
    generalize 2 ^ shift = unit at *
    have halved : cut * unit = cut / 2 * (unit + unit) + cut % 2 * unit := by
      rw [← Nat.two_mul, ← Nat.mul_assoc, ← Nat.add_mul, Nat.mul_comm (cut / 2), Nat.div_add_mod]
    rw [wider]
    rcases Nat.mod_two_eq_zero_or_one cut with even | odd
    · refine ⟨rest, by omega, ?_, ?_⟩
      · simp only [ExtendedMantissa.shiftRightOne]
        rw [even] at halved
        omega
      · cases round <;> cases sticky <;>
          simp [Residue, ExtendedMantissa.shiftRightOne, even] at residue ⊢ <;> omega
    · refine ⟨unit + rest, by omega, ?_, ?_⟩
      · simp only [ExtendedMantissa.shiftRightOne]
        rw [odd] at halved
        omega
      · cases round <;> cases sticky <;>
          simp [Residue, ExtendedMantissa.shiftRightOne, odd] at residue ⊢ <;> omega

/-- A significand is rounded to the nearest, and to an even one of two that are as near. -/
theorem nearest_roundedMantissa (mantissa shift : Nat) :
    Nearest ((⟨mantissa, false, false⟩ : ExtendedMantissa) >>> shift).roundedMantissa mantissa
      shift := by
  -- Which way it goes is a matter of the rest that was cut off.
  obtain ⟨rest, inside, whole, residue⟩ := shiftRight_residue mantissa shift
  generalize (⟨mantissa, false, false⟩ : ExtendedMantissa) >>> shift = extended at *
  obtain ⟨cut, round, sticky⟩ := extended
  simp only at whole
  have up : (cut + 1) * 2 ^ shift = cut * 2 ^ shift + 2 ^ shift := Nat.succ_mul _ _
  simp only [ExtendedMantissa.roundedMantissa]
  cases round with
  | false =>
    -- Less than half a unit is cut off, or nothing.
    have less : 2 * rest < 2 ^ shift := by
      cases sticky with
      | false =>
        have exact : rest = 0 := residue
        omega
      | true => exact (show 0 < rest ∧ 2 * rest < 2 ^ shift from residue).2
    have down : Nearest cut mantissa shift := ⟨by omega, by omega, fun _ => by omega⟩
    cases sticky <;> exact down
  | true =>
    cases sticky with
    | false =>
      have tie : 2 * rest = 2 ^ shift := residue
      show Nearest (cut + cut % 2) mantissa shift
      rcases Nat.mod_two_eq_zero_or_one cut with even | uneven
      · rw [even, Nat.add_zero]
        exact ⟨by omega, by omega, fun uneven => by omega⟩
      · rw [uneven]
        exact ⟨by omega, by omega, fun _ => by omega⟩
    | true =>
      have more : 2 ^ shift < 2 * rest := residue
      show Nearest (cut + 1) mantissa shift
      exact ⟨by omega, by omega, fun _ => by omega⟩

/-- A significand is shifted by as many places as it has bits behind the 53rd. -/
theorem shiftToTarget_eq {mantissa : Nat} {exponent : Int} (wide : 52 ≤ mantissa.log2)
    (low : -1074 ≤ exponent) :
    shiftToTargetExponent .binary64 mantissa exponent .exact =
      ((⟨mantissa, false, false⟩ : ExtendedMantissa) >>> (mantissa.log2 - 52),
        exponent + (mantissa.log2 - 52 : Nat)) := by
  have normal : -1022 ≤ exponent + mantissa.log2 := by omega
  simp only [shiftToTargetExponent, shiftToExponent, targetShift_eq wide normal]
  rfl

/-- A significand of 53 bits is not shifted, and one of 54 bits by one place. -/
theorem shiftToTarget_carried {quotient : Nat} {exponent : Int} (low : -1074 ≤ exponent)
    (least : 0x10000000000000 ≤ quotient) (most : quotient ≤ 0x20000000000000) :
    Carried exponent quotient
      (shiftToTargetExponent .binary64 quotient exponent .exact).1.mantissa
      (shiftToTargetExponent .binary64 quotient exponent .exact).2 := by
  have wide : 52 ≤ quotient.log2 := (Nat.le_log2 (by omega)).mpr least
  rw [shiftToTarget_eq wide low]
  simp only [shifted_mantissa]
  rcases Nat.lt_or_eq_of_le most with narrow | rfl
  · have full : quotient.log2 = 52 := (log2_eq_52_iff (by omega)).mpr ⟨least, narrow⟩
    rw [full, Nat.sub_self, Nat.shiftRight_zero, Int.natCast_zero, Int.add_zero]
    exact .same full
  · have full : Nat.log2 0x20000000000000 = 53 := by decide
    rw [full]
    exact .doubled

/--
A significand of 53 bits or more is rounded to the nearest one of 53 bits, whose last place is where
the 53rd bit was, or one place on after a carry.
-/
theorem roundWithAccuracy_placed (sign : Sign) (mantissa : Nat) (exponent : Int)
    (wide : 52 ≤ mantissa.log2) (low : -1074 ≤ exponent) :
    ∃ quotient significand place, Nearest quotient mantissa (mantissa.log2 - 52) ∧
      Carried (exponent + (mantissa.log2 - 52 : Nat)) quotient significand place ∧
      Placed sign significand place
        (roundWithAccuracy .binary64 sign mantissa exponent .exact) := by
  let extended := (⟨mantissa, false, false⟩ : ExtendedMantissa) >>> (mantissa.log2 - 52)
  let second := shiftToTargetExponent .binary64 extended.roundedMantissa
    (exponent + (mantissa.log2 - 52 : Nat)) .exact
  have ⟨least, most⟩ := greatest_bits wide
  have cut : extended.mantissa = mantissa >>> (mantissa.log2 - 52) := shifted_mantissa _ _
  have rounded := roundedMantissa_bounds extended
  -- Rounding up may make the significand one bit wider, and then it is shifted once more.
  have carried : Carried (exponent + (mantissa.log2 - 52 : Nat)) extended.roundedMantissa
      second.1.mantissa second.2 := shiftToTarget_carried (by omega) (by omega) (by omega)
  have positive : 0 < second.1.mantissa := pos_of_wide (Nat.le_of_eq carried.full.symm)
  refine ⟨extended.roundedMantissa, _, _, nearest_roundedMantissa _ _, carried, ?_⟩
  unfold roundWithAccuracy
  rw [shiftToTarget_eq wide low]
  show Placed sign second.1.mantissa second.2 (if empty : second.1.mantissa = 0 then .zero sign
    else .finite sign second.1.mantissa second.2 (Nat.pos_of_ne_zero empty))
  rw [dif_neg (Nat.ne_of_gt positive)]
  exact .finite positive carried.full

/-- Bits are a float of 53 bits if their field is neither that of small numbers nor the last one. -/
theorem placed_unpack (bits : BitVec Format.binary64.numBits)
    (notEmpty : unpackExponent bits ≠ 0#11) (notFull : unpackExponent bits ≠ -1#11) :
    Placed (Sign.ofBitVec (unpackSign bits)) (1#1 ++ unpackMantissa bits).toNat
      ((unpackExponent bits).toNat - 1075) (UnpackedFloat.unpack .binary64 bits) := by
  unfold UnpackedFloat.unpack
  rw [if_neg notFull, if_neg notEmpty]
  exact .finite _ (log2_implicit _)

/-- What a sign, an exponent field and the bits behind the implicit one are unpacked to. -/
theorem unpack_packComponents (sign : Sign) (field : Nat) (mantissa : BitVec 52) (low : 0 < field)
    (high : field < 2047) :
    Placed sign (1#1 ++ mantissa).toNat (field - 1075) (UnpackedFloat.unpack .binary64
      (packComponents .binary64 sign (BitVec.ofNat 11 field) mantissa)) := by
  have signs : Sign.ofBitVec sign.toBitVec = sign := by cases sign <;> rfl
  have value : (BitVec.ofNat 11 field).toNat = field := by
    rw [BitVec.toNat_ofNat]
    exact Nat.mod_eq_of_lt (by omega)
  -- The field is neither that of zeros and small numbers nor that of infinities.
  have notEmpty : BitVec.ofNat 11 field ≠ 0#11 := fun same => by
    have empty : (0#11 : BitVec 11).toNat = 0 := rfl
    rw [same] at value
    omega
  have notFull : BitVec.ofNat 11 field ≠ -1#11 := fun same => by
    have full : (-1#11 : BitVec 11).toNat = 2047 := rfl
    rw [same] at value
    omega
  have placed := placed_unpack (packComponents .binary64 sign (BitVec.ofNat 11 field) mantissa)
    (by rwa [unpackExponent_packComponents]) (by rwa [unpackExponent_packComponents])
  rwa [unpackExponent_packComponents, unpackMantissa_packComponents, unpackSign_packComponents,
    signs, value] at placed

/-- A float of 53 bits is the same after it was packed, if its exponent has a field of its own. -/
theorem Placed.unpack_pack {sign : Sign} {significand : Nat} {exponent : Int}
    {float : UnpackedFloat} (placed : Placed sign significand exponent float)
    (low : -1074 ≤ exponent) (high : exponent ≤ 971) :
    Placed sign significand exponent (Float.Model.pack float).unpack := by
  cases placed with
  | finite positive full =>
    let field : Nat := (exponent + (1023 : Nat) + (52 : Nat)).toNat
    show Placed sign significand exponent (UnpackedFloat.unpack .binary64
      (if 2048 ≤ field + 1 then packedInfinity .binary64 sign
      else if significand.log2 + 1 = 53 then
        packComponents .binary64 sign (BitVec.ofNat 11 field) (BitVec.ofNat 52 significand)
      else packComponents .binary64 sign 0#11 (BitVec.ofNat 52 significand)))
    rw [if_neg (by omega), if_pos (by omega)]
    have placed := unpack_packComponents sign field (BitVec.ofNat 52 significand) (by omega)
      (by omega)
    -- The implicit bit is the first one of the significand.
    have whole : (1#1 ++ BitVec.ofNat 52 significand).toNat = significand := by
      have bounds := bounds_of_full full
      change 2 ^ 52 ||| significand % 2 ^ 52 = _
      rw [Nat.or_comm, Nat.or_two_pow_eq_add_of_lt (Nat.mod_lt _ (by decide))]
      omega
    have place : (field : Int) - 1075 = exponent := by omega
    rwa [whole, place] at placed

/-! ### Integers -/

/--
What a float has of a positive count, in units of the 52nd place behind the point: its place is that
of the first bit of the count, or the next one if the count was rounded up to a power of two, and at
most half a unit of its last place is missing or too much.
-/
structure Nearby (count significand place : Nat) : Prop where
  first : place = count.log2 ∨ place = count.log2 + 1 ∧ significand = 0x10000000000000
  missing : 2 * (0x10000000000000 * count) ≤ 2 * (significand * 2 ^ place) + 2 ^ count.log2
  excess : 2 * (significand * 2 ^ place) ≤ 2 * (0x10000000000000 * count) + 2 ^ count.log2

/-- A quotient that is near enough to a count, and was carried, is what a float has of the count. -/
theorem Carried.nearby {quotient significand : Nat} {exponent exponent' : Int}
    (carried : Carried exponent quotient significand exponent') (count : Nat)
    (start : exponent = count.log2 - 52)
    (missing : 2 * (0x10000000000000 * count) ≤
      2 * (quotient * 2 ^ count.log2) + 2 ^ count.log2)
    (excess : 2 * (quotient * 2 ^ count.log2) ≤
      2 * (0x10000000000000 * count) + 2 ^ count.log2) :
    ∃ place : Nat, exponent' = place - 52 ∧ Nearby count significand place := by
  cases carried with
  | same full => exact ⟨count.log2, start, .inl rfl, missing, excess⟩
  | doubled =>
    -- Twice the significand at one place is the same as the significand at the next.
    have doubled : 2 ^ (count.log2 + 1) = 2 ^ count.log2 * 2 := Nat.pow_succ _ _
    exact ⟨count.log2 + 1, by omega, .inr ⟨rfl, rfl⟩, by omega, by omega⟩

/-- A significand that is a multiple of the unit is divided without a rest. -/
theorem Nearest.exact {quotient cut shift : Nat}
    (nearest : Nearest quotient (cut * 2 ^ shift) shift) : quotient = cut := by
  -- Otherwise a whole unit would be missing or too much.
  have positive : 0 < 2 ^ shift := Nat.two_pow_pos _
  have missing := nearest.missing
  have excess := nearest.excess
  rcases Nat.lt_trichotomy quotient cut with less | same | more
  · have := Nat.mul_le_mul_right (2 ^ shift) (Nat.succ_le_of_lt less)
    rw [Nat.succ_mul] at this
    omega
  · exact same
  · have := Nat.mul_le_mul_right (2 ^ shift) (Nat.succ_le_of_lt more)
    rw [Nat.succ_mul] at this
    omega

/-- A finite float of 53 bits is the same times one. -/
theorem Placed.mul_one {sign : Sign} {significand : Nat} {exponent : Int} {float : UnpackedFloat}
    (placed : Placed sign significand exponent float) (low : -1000 ≤ exponent) :
    Placed sign significand exponent (UnpackedFloat.mul .binary64 float
      (.finite .positive 0x10000000000000 (-52) (by decide))) := by
  have signs : sign * .positive = sign := by cases sign <;> rfl
  cases placed with
  | finite positive full =>
    show Placed sign significand exponent (roundWithAccuracy .binary64 (sign * .positive)
      (significand * 0x10000000000000) (exponent + -52) .exact)
    rw [signs]
    have bounds := bounds_of_full full
    have width : (significand * 0x10000000000000).log2 = 104 :=
      (Nat.log2_eq_iff (by omega)).mpr (by omega)
    obtain ⟨quotient, significand', place, nearest, carried, placed⟩ :=
      roundWithAccuracy_placed sign (significand * 0x10000000000000) (exponent + -52) (by omega)
        (by omega)
    rw [width] at nearest carried
    have nearest : Nearest quotient (significand * 2 ^ 52) 52 := nearest
    obtain rfl : quotient = significand := nearest.exact
    cases carried with
    | same =>
      have back : exponent + -52 + ((104 - 52 : Nat) : Int) = exponent := by omega
      rwa [back] at placed
    | doubled => omega

/-- A count of few bits is converted to a float that has what is near to it. -/
theorem placed_ofNat {count : Nat} (positive : 0 < count) (small : count < 0x20000000000000) :
    ∃ significand place : Nat, Nearby count significand place ∧
      Placed .positive significand (place - 52) (UnpackedFloat.ofNat .binary64 count) := by
  -- The count is shifted to the left until it has 53 bits, and nothing of it is cut off.
  have order : compare (count : Int) 0 = .gt := by
    simp only [compare, compareOfLessAndEq]
    rw [if_neg (by omega), if_neg (by omega)]
  have narrow : count.log2 < 53 := log2_lt_of_lt (by decide) small
  have shift : (0 - Format.binary64.targetExponent (totalExponent count 0)).toNat =
      52 - count.log2 := by
    rw [targetExponent_eq]
    unfold totalExponent
    omega
  have same : UnpackedFloat.ofNat .binary64 count = roundWithAccuracy .binary64 .positive
      (count <<< (52 - count.log2)) (0 - (52 - count.log2 : Nat)) .exact := by
    simp only [UnpackedFloat.ofNat, UnpackedFloat.ofInt, UnpackedFloat.normalize, order,
      UnpackedFloat.round, decreaseExponent, Int.toNat_natCast, shift]
  have width : (count <<< (52 - count.log2)).log2 = 52 := by
    rw [log2_shiftLeft positive]
    omega
  obtain ⟨quotient, significand, exponent, nearest, carried, placed⟩ :=
    roundWithAccuracy_placed .positive (count <<< (52 - count.log2)) (0 - (52 - count.log2 : Nat))
      (by omega) (by omega)
  rw [width] at nearest carried
  have nearest : Nearest quotient (count <<< (52 - count.log2) * 2 ^ 0) 0 := by
    rwa [Nat.sub_self, ← Nat.mul_one (count <<< (52 - count.log2))] at nearest
  have scaled : (count <<< (52 - count.log2)) * 2 ^ count.log2 = 0x10000000000000 * count := by
    rw [Nat.shiftLeft_eq, Nat.mul_assoc, ← Nat.pow_add, Nat.sub_add_cancel (by omega),
      Nat.mul_comm]
  rw [nearest.exact] at carried
  obtain ⟨place, rfl, nearby⟩ := carried.nearby count (by omega)
    (by rw [scaled]; exact Nat.le_add_right _ _) (by rw [scaled]; exact Nat.le_add_right _ _)
  exact ⟨significand, place, nearby, same ▸ placed⟩

/-- The place of a float that is near to a count in the range of a word. -/
theorem Nearby.place_le {count significand place : Nat} (nearby : Nearby count significand place)
    (inside : count ≤ 0x8000000000000000) : place ≤ 64 := by
  have width : count.log2 < 64 := log2_lt_of_lt (by decide) (by omega)
  rcases nearby.first with same | ⟨next, _⟩ <;> omega

/-- A positive integer as a float has what is near to the integer. -/
theorem placed_float_ofNat {count : Nat} (positive : 0 < count)
    (inside : count ≤ 0x8000000000000000) :
    ∃ significand place : Nat, Nearby count significand place ∧
      Placed .positive significand (place - 52) (Float.ofNat count).toModel.unpack := by
  show ∃ significand place : Nat, Nearby count significand place ∧
    Placed .positive significand (place - 52) (Float.ofScientific count false 0).toModel.unpack
  unfold Float.ofScientific
  split
  · -- Small integers are converted, and multiplied by the power of ten that is one.
    rename_i small
    have same : count.toUInt64.toNat = count := UInt64.toNat_ofNat_of_lt (by
      simp only [UInt64.size]
      omega)
    have one : (Float.exactlyRepresentablePowersOfTen[0]).toModel.unpack =
        .finite .positive 0x10000000000000 (-52) (by decide) := by rfl
    obtain ⟨significand, place, nearby, placed⟩ := placed_ofNat positive small.1
    have high := nearby.place_le inside
    refine ⟨significand, place, nearby, ?_⟩
    show Placed _ _ _ (Float.Model.pack (UnpackedFloat.mul .binary64
      (Float.Model.pack (UnpackedFloat.ofNat .binary64 count.toUInt64.toNat)).unpack
      (Float.exactlyRepresentablePowersOfTen[0]).toModel.unpack)).unpack
    rw [same, one]
    exact ((placed.unpack_pack (by omega) (by omega)).mul_one (by omega)).unpack_pack (by omega)
      (by omega)
  · -- Large integers are multiplied by a power of ten, which is one.
    have width := log2_shiftLeft positive 53
    obtain ⟨quotient, significand, exponent, nearest, carried, placed⟩ :=
      roundWithAccuracy_placed .positive (count <<< 53) (-53) (by omega) (by omega)
    rw [width] at nearest carried
    -- The unit of the last place is twice the power of two that the count begins with.
    have missing := nearest.missing
    have excess := nearest.excess
    have shift : count.log2 + 53 - 52 = count.log2 + 1 := by omega
    rw [shift, Nat.pow_succ, Nat.shiftLeft_eq, ← Nat.mul_assoc quotient, Nat.mul_comm count]
      at missing excess
    obtain ⟨place, rfl, nearby⟩ := carried.nearby count (by omega) (by omega) (by omega)
    have high := nearby.place_le inside
    refine ⟨significand, place, nearby, ?_⟩
    show Placed _ _ _ (Float.Model.pack (UnpackedFloat.ofScientific .binary64 count 0)).unpack
    rw [ofScientific_eq positive]
    exact placed.unpack_pack (by omega) (by omega)

/-- A finite float has the opposite sign when it is negated, and is the same otherwise. -/
theorem Placed.neg {sign : Sign} {significand : Nat} {exponent : Int} {float : UnpackedFloat}
    (placed : Placed sign significand exponent float) :
    Placed (-sign) significand exponent float.neg := by
  cases placed with
  | finite positive full => exact .finite positive full

/-- The magnitude of a word is in the range of words, or at its lower end. -/
theorem count_le {word : Int64} {sign : Sign} {count : Nat}
    (value : word.toInt = sign.apply count) : count ≤ 0x8000000000000000 := by
  have bounds := toInt_bounds word
  simp only [leastWord, greatestWord] at bounds
  cases sign <;> simp only [Sign.apply] at value <;> omega

/-- A word that is not zero has what is near to its magnitude, as a float of its sign. -/
theorem placed_toFloat {word : Int64} {sign : Sign} {count : Nat} (positive : 0 < count)
    (value : word.toInt = sign.apply count) :
    ∃ significand place : Nat, Nearby count significand place ∧
      Placed sign significand (place - 52) (toFloat word).toModel.unpack := by
  have inside := count_le value
  obtain ⟨significand, place, nearby, placed⟩ := placed_float_ofNat positive inside
  have high := nearby.place_le inside
  unfold toFloat
  cases sign with
  | positive =>
    have value : word.toInt = count := value
    rw [value]
    exact ⟨significand, place, nearby, placed⟩
  | negative =>
    -- A negative integer is converted as the opposite of a positive one.
    have value : word.toInt = -count := value
    obtain ⟨less, rfl⟩ := Nat.exists_eq_add_one_of_ne_zero (Nat.ne_of_gt positive)
    have negative : word.toInt = Int.negSucc less := by omega
    rw [negative]
    exact ⟨significand, place, nearby, placed.neg.unpack_pack (by omega) (by omega)⟩

end Scriptlet.Numeric
