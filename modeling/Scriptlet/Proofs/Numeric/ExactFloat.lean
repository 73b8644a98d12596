import Scriptlet.Numeric.Binary64
import Scriptlet.Proofs.Numeric.Rounding
import Mathlib.Algebra.Order.Field.Rat
import Mathlib.Order.WithBotTop

/-!
Exact values of floats. Every float that is a number has a rank: a rational if it is finite, and one
of two ends if it is not. Floats are ordered as their ranks are.
-/

namespace Scriptlet.Numeric

open Float.Model Float.Model.UnpackedFloat

/-- The exact value of a finite float. -/
def Binary64.exact (value : Binary64) : ℚ :=
  (if value.negative then -1 else 1) * (value.significand * 2 ^ value.exponent)

/-- The exact value of a float, if that is finite. -/
def valueOf? (x : Float) : Option ℚ :=
  (Binary64.ofFloat? x).map Binary64.exact

/-- The rationals between two ends. -/
abbrev Rank := WithBotTop ℚ

/-- Where a float lies among the ranks; a float that is no number lies nowhere. -/
def rank? : UnpackedFloat → Option Rank
  | .notANumber => none
  | .infinity .negative => some ⊥
  | .infinity .positive => some ⊤
  | .zero _ => some ((0 : ℚ) : Rank)
  | .finite sign significand exponent _ =>
    some ((sign.apply significand * 2 ^ exponent : ℚ) : Rank)

/-- A significand of 53 bits, or a lesser one at the lowest exponent. -/
structure Normalized (significand : Nat) (exponent : Int) : Prop where
  narrow : significand < 0x20000000000000
  low : -1074 ≤ exponent
  full : 0x10000000000000 ≤ significand ∨ exponent = -1074

/-- What bits are unpacked to. -/
inductive Canonical : UnpackedFloat → Prop where
  | notANumber : Canonical .notANumber
  | infinity (sign : Sign) : Canonical (.infinity sign)
  | zero (sign : Sign) : Canonical (.zero sign)
  | finite {sign : Sign} {significand : Nat} {exponent : Int} {positive : 0 < significand}
    (normalized : Normalized significand exponent) :
    Canonical (.finite sign significand exponent positive)

/-! ### Bits -/

section Bits

variable (bits : BitVec 64)

/-- The exponent field stands behind the sign and in front of the 52 bits of the significand. -/
theorem toNat_unpackExponent :
    (@unpackExponent .binary64 bits).toNat = bits.toNat / 2 ^ 52 % 2048 := by
  simp [unpackExponent, Nat.shiftRight_eq_div_pow]

/-- The last bits are those of the significand. -/
theorem toNat_unpackMantissa :
    (@unpackMantissa .binary64 bits).toNat = bits.toNat % 2 ^ 52 := by
  simp [unpackMantissa]

/-- The first bit is the sign. -/
theorem ofBitVec_unpackSign :
    Sign.ofBitVec (@unpackSign .binary64 bits) =
      if signBit ≤ bits.toNat then .negative else .positive := by
  have value : (@unpackSign .binary64 bits).toNat = bits.toNat / 2 ^ 63 % 2 := by
    show ((BitVec.extractLsb 63 63 bits).cast _).toNat = _
    rw [BitVec.toNat_cast, BitVec.extractLsb_toNat, Nat.shiftRight_eq_div_pow]
  have inside := bits.isLt
  have first : @unpackSign .binary64 bits = 0#1 ↔ ¬ signBit ≤ bits.toNat := by
    rw [← BitVec.toNat_inj, value, signBit]
    simp only [BitVec.toNat_ofNat]
    omega
  unfold Sign.ofBitVec
  by_cases negative : signBit ≤ bits.toNat
  · rw [if_pos negative, if_neg (by rw [first]; exact not_not.mpr negative)]
  · rw [if_neg negative, if_pos (first.mpr negative)]

/-- What a sign, an exponent field and the other bits of a significand are unpacked to. -/
inductive Unpacked (sign : Sign) (field fraction : Nat) : UnpackedFloat → Prop where
  | notANumber (last : field = 2047) : Unpacked sign field fraction .notANumber
  | infinity (last : field = 2047) : Unpacked sign field fraction (.infinity sign)
  | zero (first : field = 0) (none : fraction = 0) : Unpacked sign field fraction (.zero sign)
  | small (first : field = 0) (some : 0 < fraction) :
    Unpacked sign field fraction (.finite sign fraction (-1074) some)
  | normal (notFirst : field ≠ 0) (notLast : field ≠ 2047) (positive : 0 < fraction + leadingBit) :
    Unpacked sign field fraction
      (.finite sign (fraction + leadingBit) ((field : Int) - 1075) positive)

/-- Finite floats are the same when their significands and exponents are. -/
theorem finite_congr {sign : Sign} {significand significand' : Nat} {exponent exponent' : Int}
    {positive : 0 < significand} (positive' : 0 < significand')
    (significands : significand = significand') (exponents : exponent = exponent') :
    UnpackedFloat.finite sign significand exponent positive =
      .finite sign significand' exponent' positive' := by
  subst significands exponents
  rfl

/-- Bits are unpacked by their three fields. -/
theorem unpacked_unpack :
    Unpacked (if signBit ≤ bits.toNat then .negative else .positive)
      (bits.toNat / 2 ^ 52 % 2048) (bits.toNat % 2 ^ 52)
      (UnpackedFloat.unpack .binary64 bits) := by
  have field := toNat_unpackExponent bits
  have fraction := toNat_unpackMantissa bits
  -- The tests on the bit fields are tests on the numbers that they write.
  have last : @unpackExponent .binary64 bits = -1#11 ↔ bits.toNat / 2 ^ 52 % 2048 = 2047 := by
    rw [← BitVec.toNat_inj, field]
    rfl
  have first : @unpackExponent .binary64 bits = 0#11 ↔ bits.toNat / 2 ^ 52 % 2048 = 0 := by
    rw [← BitVec.toNat_inj, field]
    rfl
  have none : @unpackMantissa .binary64 bits = 0#52 ↔ bits.toNat % 2 ^ 52 = 0 := by
    rw [← BitVec.toNat_inj, fraction]
    rfl
  rw [← ofBitVec_unpackSign]
  unfold UnpackedFloat.unpack
  by_cases atLast : @unpackExponent .binary64 bits = -1#11
  · rw [if_pos atLast]
    split
    · exact .infinity (last.mp atLast)
    · exact .notANumber (last.mp atLast)
  · rw [if_neg atLast]
    by_cases atFirst : @unpackExponent .binary64 bits = 0#11
    · rw [if_pos atFirst]
      -- Below the least exponent, significands have no leading bit.
      have lowest : ((@unpackExponent .binary64 bits).toNat : Int) -
          ((Format.binary64.exponentBias : Nat) + (52 : Nat)) + 1 = -1074 := by
        rw [atFirst]
        rfl
      by_cases atZero : @unpackMantissa .binary64 bits = 0#52
      · rw [dif_pos atZero]
        exact .zero (first.mp atFirst) (none.mp atZero)
      · rw [dif_neg atZero]
        have some := Nat.pos_of_ne_zero (mt none.mpr atZero)
        rw [finite_congr some fraction lowest]
        exact .small (first.mp atFirst) some
    · rw [if_neg atFirst]
      -- All others have their leading bit put in front of the stored ones.
      have whole : (1#1 ++ @unpackMantissa .binary64 bits).toNat =
          bits.toNat % 2 ^ 52 + leadingBit := by
        change 2 ^ 52 ||| (@unpackMantissa .binary64 bits).toNat = _
        rw [fraction, Nat.or_comm, Nat.or_two_pow_eq_add_of_lt (Nat.mod_lt _ (by decide))]
        rfl
      have positive : 0 < bits.toNat % 2 ^ 52 + leadingBit := by
        unfold leadingBit
        omega
      rw [finite_congr positive whole (by rw [field])]
      exact .normal (mt first.mpr atFirst) (mt last.mpr atLast) positive

/-- Unpacked significands have 53 bits, or less at the lowest exponent. -/
theorem Unpacked.canonical {sign : Sign} {field fraction : Nat} {float : UnpackedFloat}
    (unpacked : Unpacked sign field fraction float) (inside : fraction < 2 ^ 52) :
    Canonical float := by
  cases unpacked with
  | notANumber last => exact .notANumber
  | infinity last => exact .infinity sign
  | zero first none => exact .zero sign
  | small first some => exact .finite ⟨by omega, by omega, .inr rfl⟩
  | normal notFirst notLast positive =>
    have first : leadingBit = 2 ^ 52 := rfl
    exact .finite ⟨by omega, by omega, .inl (by omega)⟩

end Bits

/-- Floats are unpacked to canonical ones. -/
theorem canonical_unpack (x : Float) : Canonical x.toModel.unpack :=
  (unpacked_unpack x.toModel.toBits.toBitVec).canonical (Nat.mod_lt _ (by decide))

/-- A significand and a sign make up the same value in both forms. -/
theorem exact_eq_apply (negative : Prop) [Decidable negative] (significand : Nat)
    (exponent : Int) :
    Binary64.exact ⟨decide negative, significand, exponent⟩ =
      ((if negative then Sign.negative else Sign.positive).apply significand : ℚ) *
        2 ^ exponent := by
  -- One case for each sign.
  unfold Binary64.exact
  by_cases holds : negative
  · simp [holds, Sign.apply]
  · simp [holds, Sign.apply]

/-- Rationals are the same when their ranks are. -/
theorem coe_rank_inj {one other : ℚ} :
    some (one : Rank) = some (other : Rank) ↔ some one = some other := by
  rw [Option.some_inj, Option.some_inj, WithBotTop.coe_injective.eq_iff]

/-- Infinities are not among the rationals. -/
theorem rank?_infinity_ne (sign : Sign) (value : ℚ) :
    rank? (.infinity sign) ≠ some (value : Rank) := by
  intro same
  cases sign with
  | negative => exact WithBotTop.coe_ne_bot value (Option.some.inj same).symm
  | positive => exact WithBotTop.coe_ne_top value (Option.some.inj same).symm

/-- Fields that are unpacked to a rank among the rationals have it as their exact value. -/
theorem Unpacked.rank?_eq_coe_iff {negative : Prop} [Decidable negative] {field fraction : Nat}
    {float : UnpackedFloat}
    (unpacked : Unpacked (if negative then .negative else .positive) field fraction float)
    (value : ℚ) :
    rank? float = some (value : Rank) ↔
      (if field = 2047 then none
        else if field = 0 then
          some (⟨decide negative, fraction, lowestExponent⟩ : Binary64)
        else some ⟨decide negative, fraction + leadingBit, field - 1075⟩).map Binary64.exact =
          some value := by
  -- One case for each kind of float; both sides choose by the exponent's field.
  cases unpacked with
  | notANumber last =>
    rw [if_pos last]
    exact iff_of_false (fun same => Option.some_ne_none (value : Rank) same.symm) fun same =>
      Option.some_ne_none value same.symm
  | infinity last =>
    rw [if_pos last]
    exact iff_of_false (rank?_infinity_ne _ _) fun same => Option.some_ne_none value same.symm
  | zero first none =>
    have nothing : (if negative then Sign.negative else Sign.positive).apply (0 : Nat) = 0 := by
      split <;> rfl
    rw [if_neg (show ¬ field = 2047 by omega), if_pos first, Option.map_some, exact_eq_apply, none,
      nothing, Int.cast_zero, zero_mul]
    exact coe_rank_inj
  | small first some =>
    rw [if_neg (show ¬ field = 2047 by omega), if_pos first, Option.map_some, exact_eq_apply]
    exact coe_rank_inj
  | normal notFirst notLast positive =>
    rw [if_neg notLast, if_neg notFirst, Option.map_some, exact_eq_apply]
    exact coe_rank_inj

/-- The rank of a finite float is its exact value; no other float has a rational as its rank. -/
theorem rank?_unpack_eq_coe_iff (x : Float) (value : ℚ) :
    rank? x.toModel.unpack = some (value : Rank) ↔ valueOf? x = some value :=
  (unpacked_unpack x.toModel.toBits.toBitVec).rank?_eq_coe_iff value

end Scriptlet.Numeric
