/-! Finite 64-bit floats as integers times powers of two, and their exact remainder. -/

namespace Scriptlet.Numeric

/-- A sign, a natural significand and a power of two: the exact value of a finite float. -/
structure Binary64 where
  negative : Bool
  significand : Nat
  exponent : Int
deriving DecidableEq, Repr

/-- The lowest power of two in a float's last place. -/
def lowestExponent : Int := -1074

/-- The significand at which a float's last place doubles. -/
def leadingBit : Nat := 0x10000000000000

/-- The bit that tells the sign of a float. -/
def signBit : Nat := 0x8000000000000000

/-- The exact value of a float; nothing for an infinity or a float that is no number. -/
def Binary64.ofFloat? (x : Float) : Option Binary64 :=
  let bits := x.toBits.toNat
  let negative := decide (signBit ≤ bits)
  let biased := bits / leadingBit % 2048
  let fraction := bits % leadingBit
  if biased = 2047 then
    none
  else if biased = 0 then
    some { negative, significand := fraction, exponent := lowestExponent }
  else
    some { negative, significand := fraction + leadingBit, exponent := (biased : Int) - 1075 }

/-- The float of a value that is a float's: the significand is shifted up as far as it goes. -/
def Binary64.toFloat (value : Binary64) : Float :=
  let room := min (52 - value.significand.log2) (value.exponent - lowestExponent).toNat
  let significand := value.significand * Nat.pow 2 room
  let biased := (value.exponent - room + 1075).toNat
  let magnitude :=
    if significand < leadingBit then significand
    else biased * leadingBit + (significand - leadingBit)
  Float.ofBits (UInt64.ofNat (magnitude + if value.negative then signBit else 0))

/-- What is left of one value after taking away as much of another as fits, with the first sign. -/
def Binary64.remainder (dividend divisor : Binary64) : Binary64 :=
  let exponent := min dividend.exponent divisor.exponent
  let scaled (value : Binary64) := value.significand * Nat.pow 2 (value.exponent - exponent).toNat
  { negative := dividend.negative, significand := scaled dividend % scaled divisor, exponent }

/-- A float that is no number. -/
def notANumber : Float := Float.ofBits 0x7FF8000000000000

/--
The exact remainder of a division whose quotient is cut toward zero: it has the sign of the
dividend and is smaller than the divisor.
-/
def truncatedRemainder (dividend divisor : Float) : Float :=
  match Binary64.ofFloat? dividend, Binary64.ofFloat? divisor with
  | some value, some unit =>
    if unit.significand = 0 then notANumber else (value.remainder unit).toFloat
  | some _, none => if divisor.isInf then dividend else notANumber
  | none, _ => notANumber

/-- The remainder of a division whose quotient is floored: it has the sign of the divisor. -/
def flooredRemainder (dividend divisor : Float) : Float :=
  let rest := truncatedRemainder dividend divisor
  if rest != 0 && decide (rest < 0) != decide (divisor < 0) then rest + divisor else rest

/-- The order of two floats; nothing when one of them is no number. -/
def compareFloats (left right : Float) : Option Ordering :=
  if left < right then some .lt
  else if right < left then some .gt
  else if left == right then some .eq
  else none

end Scriptlet.Numeric
