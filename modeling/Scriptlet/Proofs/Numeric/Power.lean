import Mathlib.Algebra.Ring.Int.Defs
import Scriptlet.Number
import Scriptlet.Proofs.Numeric.Sign

/-!
Powers of integers. Those with exponents of 32 bits are integers whenever they fit. With greater
exponents, powers of zero and of the two units fit as well, but are computed as floats.
-/

namespace Scriptlet

namespace Numeric

open Float.Model

/-- A float that is not negative is not less than zero. -/
theorem not_lt_zero_of_nonneg {float : Float} (nonneg : 0 ≤ float) : ¬ float < 0 := by
  have zero : (0 : Float).toModel.unpack = .zero .positive := by rfl
  have least : UnpackedFloat.le (.zero .positive) float.toModel.unpack = true :=
    zero ▸ decide_eq_true_iff.mp nonneg
  intro less
  have below : UnpackedFloat.lt float.toModel.unpack (.zero .positive) = true :=
    zero ▸ decide_eq_true_iff.mp less
  -- A float on one side of zero is not on the other side.
  generalize float.toModel.unpack = unpacked at least below
  rcases unpacked with ⟨_ | _⟩ | _ | _ | ⟨_ | _, _, _, _⟩ <;>
    first
    | exact absurd least Bool.false_ne_true
    | exact absurd below Bool.false_ne_true

/-- Of the powers of zero and of a unit, those with exponents of one parity are the same. -/
theorem pow_parity {base : Int} (small : base.natAbs ≤ 1) (exponent : Nat) :
    base ^ (if exponent = 0 then 0 else 2 - exponent % 2) = base ^ exponent := by
  have cube : base * base * base = base := by
    obtain rfl | rfl | rfl : base = 0 ∨ base = 1 ∨ base = -1 := by omega
    all_goals rfl
  -- The induction takes two factors at a time.
  induction exponent using Nat.twoStepInduction with
  | zero => rfl
  | one => rfl
  | more exponent ih _ =>
    rcases Nat.eq_zero_or_pos exponent with rfl | positive
    · rfl
    · have parity : 2 - (exponent + 2) % 2 = 2 - exponent % 2 := by omega
      rw [if_neg (by omega)] at ih ⊢
      obtain ⟨less, rfl⟩ : ∃ less, exponent = less + 1 := ⟨exponent - 1, by omega⟩
      calc base ^ (2 - (less + 1 + 2) % 2) = base ^ (less + 1) := by rw [parity, ih]
        _ = base ^ less * (base * base * base) := by rw [pow_succ, cube]
        _ = base ^ (less + 1 + 2) := by simp only [pow_succ, mul_assoc]

/-- Powers of all other integers do not fit when their exponents are not less than the width. -/
theorem fit_pow_eq_none {base : Int} (large : 2 ≤ base.natAbs) {exponent : Nat}
    (wide : 64 ≤ exponent) : fit (base ^ exponent) = none := by
  -- Already the powers of two have left the range.
  have outgrown : 0x10000000000000000 ≤ (base ^ exponent).natAbs :=
    calc 0x10000000000000000 = 2 ^ 64 := rfl
      _ ≤ 2 ^ exponent := Nat.pow_le_pow_right (by decide) wide
      _ ≤ base.natAbs ^ exponent := Nat.pow_le_pow_left large exponent
      _ = (base ^ exponent).natAbs := (Int.natAbs_pow base exponent).symm
  rw [fit_eq_none_iff, leastWord, greatestWord]
  omega

end Numeric

namespace Number

open Numeric

variable {base count : Int64} {exponent : Nat}

/-- With an exponent of 32 bits, the exact power is found exactly when it fits. -/
theorem exactPower?_eq_fit (narrow : exponent ≤ greatestExponent) :
    exactPower? base exponent = fit (base.toInt ^ exponent) := by
  -- Powers of zero and of units are found by parity, and those of others only below the width.
  rw [exactPower?, if_neg (Nat.not_lt.mpr narrow)]
  split
  · rename_i small
    exact congrArg fit (pow_parity small exponent)
  · rename_i large
    split
    · rfl
    · rename_i wide
      exact (fit_pow_eq_none (by omega) (by omega)).symm

/-- With a greater exponent, no exact power is found. -/
theorem exactPower?_eq_none (wide : greatestExponent < exponent) :
    exactPower? base exponent = none := if_pos wide

/-- A power with an exponent that is not negative is an integer if an exact power is found. -/
theorem pow?_int (counts : 0 ≤ count.toInt) :
    pow? (.int base) (.int count) =
      match exactPower? base count.toInt.toNat with
      | some power => some (.int power)
      | none => some (floatPower (.int base) (.int count)) := by
  -- The exponent is compared as a float, which has the sign of the integer.
  have inverts : decide ((Number.int count).toFloat < 0) = false :=
    decide_eq_false (not_lt_zero_of_nonneg ((toFloat_nonneg_iff count).mpr counts))
  simp only [pow?, inverts, Bool.and_false, Bool.false_eq_true, ↓reduceIte]
  exact if_neg (Int.not_lt.mpr counts)

/--
An integer to a power stays an integer while it fits: the result is the exact power if that is an
integer of 64 bits, and a float otherwise.
-/
def StaysInteger (base count : Int64) : Prop :=
  match fit (base.toInt ^ count.toInt.toNat) with
  | some power => pow? (.int base) (.int count) = some (.int power)
  | none => ∃ power, pow? (.int base) (.int count) = some (.float power)

/-- An exponent of 32 bits makes no integer power a float. -/
theorem staysInteger_of_narrow (counts : 0 ≤ count.toInt)
    (narrow : count.toInt.toNat ≤ greatestExponent) : StaysInteger base count := by
  rw [StaysInteger, pow?_int counts, exactPower?_eq_fit narrow]
  cases fit (base.toInt ^ count.toInt.toNat) with
  | some power => rfl
  | none => exact ⟨_, rfl⟩

/-- A greater exponent always makes a float. -/
theorem pow?_wide (counts : 0 ≤ count.toInt) (wide : greatestExponent < count.toInt.toNat) :
    pow? (.int base) (.int count) = some (floatPower (.int base) (.int count)) := by
  rw [pow?_int counts, exactPower?_eq_none wide]

/-- A float is right for powers that do not fit. -/
theorem staysInteger_of_large (counts : 0 ≤ count.toInt)
    (wide : greatestExponent < count.toInt.toNat) (large : 2 ≤ base.toInt.natAbs) :
    StaysInteger base count := by
  rw [StaysInteger, fit_pow_eq_none large (Nat.le_of_lt (Nat.lt_of_le_of_lt (by decide) wide))]
  exact ⟨_, pow?_wide counts wide⟩

/-- A float is wrong for powers of zero and of units, since all of those fit. -/
theorem not_staysInteger (counts : 0 ≤ count.toInt) (wide : greatestExponent < count.toInt.toNat)
    (small : base.toInt.natAbs ≤ 1) : ¬ StaysInteger base count := by
  -- The exact power is no farther from zero than one.
  have bounded : (base.toInt ^ count.toInt.toNat).natAbs ≤ 1 :=
    calc (base.toInt ^ count.toInt.toNat).natAbs = base.toInt.natAbs ^ count.toInt.toNat :=
        Int.natAbs_pow _ _
      _ ≤ 1 ^ count.toInt.toNat := Nat.pow_le_pow_left small _
      _ = 1 := Nat.one_pow _
  have fits : fit (base.toInt ^ count.toInt.toNat) =
      some (Int64.ofInt (base.toInt ^ count.toInt.toNat)) := by
    refine if_pos ?_
    rw [leastWord, greatestWord]
    omega
  intro stays
  rw [StaysInteger, fits] at stays
  cases (pow?_wide counts wide).symm.trans stays

/--
Integer powers stay integers while they fit if the exponent has 32 bits or the base is neither zero
nor a unit. Powers of zero and of units with greater exponents are floats, although they fit.
-/
theorem staysInteger_iff (counts : 0 ≤ count.toInt) :
    (StaysInteger base count ↔
      count.toInt.toNat ≤ greatestExponent ∨ 2 ≤ base.toInt.natAbs) ∧
    (¬ StaysInteger base count →
      pow? (.int base) (.int count) = some (floatPower (.int base) (.int count))) := by
  by_cases narrow : count.toInt.toNat ≤ greatestExponent
  · have stays : StaysInteger base count := staysInteger_of_narrow counts narrow
    exact ⟨⟨fun _ => .inl narrow, fun _ => stays⟩, fun strays => absurd stays strays⟩
  · have wide := Nat.lt_of_not_le narrow
    refine ⟨⟨fun stays => .inr ?_, ?_⟩, fun _ => pow?_wide counts wide⟩
    · by_contra small
      exact not_staysInteger counts wide (by omega) stays
    · rintro (absent | large)
      · exact absurd absent narrow
      · exact staysInteger_of_large counts wide large

/-- The least integer of 64 bits is a power of minus two, and the next power is a float. -/
theorem staysInteger_iff_least :
    0 ≤ (63 : Int64).toInt ∧
      pow? (.int (-2)) (.int 63) = some (.int (-0x8000000000000000)) ∧
      ∃ power, pow? (.int (-2)) (.int 64) = some (.float power) := by
  have least : StaysInteger (-2) 63 := (staysInteger_iff (by decide)).1.mpr (.inl (by decide))
  have beyond : StaysInteger (-2) 64 := (staysInteger_iff (by decide)).1.mpr (.inl (by decide))
  have fits : fit ((-2 : Int64).toInt ^ (63 : Int64).toInt.toNat) = some (-0x8000000000000000) := by
    decide
  have outgrows : fit ((-2 : Int64).toInt ^ (64 : Int64).toInt.toNat) = none := by decide
  rw [StaysInteger, fits] at least
  rw [StaysInteger, outgrows] at beyond
  exact ⟨by decide, least, beyond⟩

/-- One to the power of the first exponent of 33 bits is a float, although it is one. -/
theorem not_staysInteger_one : ¬ StaysInteger 1 0x100000000 :=
  not_staysInteger (by decide) (by decide) (by decide)

end Number

end Scriptlet
