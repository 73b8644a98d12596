import Scriptlet.Numeric.Word
import Scriptlet.Numeric.Shortest

/-! Numbers: integers that stay exact while they fit into 64 bits, and floats for all others. -/

namespace Scriptlet

open Numeric

/-- A number is an integer of 64 bits or a float. -/
inductive Number where
  | int (value : Int64)
  | float (value : Float)
deriving DecidableEq

namespace Number

/-- The number as a float; large integers are rounded. -/
def toFloat : Number → Float
  | .int value => Numeric.toFloat value
  | .float value => value

/-- A number is zero when it equals zero, whatever the sign of a zero float. -/
def isZero : Number → Bool
  | .int value => value == 0
  | .float value => value == 0

/-- An integer operation that is exact while its result fits, and rounds both operands otherwise. -/
def exactOr (exact : Int → Int → Int) (rounded : Float → Float → Float) : Number → Number → Number
  | .int left, .int right =>
    match fit (exact left.toInt right.toInt) with
    | some result => .int result
    | none => .float (rounded (Numeric.toFloat left) (Numeric.toFloat right))
  | left, right => .float (rounded left.toFloat right.toFloat)

/-- The sum, an integer while it fits. -/
def add : Number → Number → Number := exactOr (· + ·) (· + ·)

/-- The difference, an integer while it fits. -/
def sub : Number → Number → Number := exactOr (· - ·) (· - ·)

/-- The product, an integer while it fits. -/
def mul : Number → Number → Number := exactOr (· * ·) (· * ·)

/-- The number with the opposite sign, an integer while it fits. -/
def negate : Number → Number
  | .int value =>
    match fit (-value.toInt) with
    | some result => .int result
    | none => .float (-Numeric.toFloat value)
  | .float value => .float (-value)

/-- The quotient as a float; nothing when the divisor is zero. -/
def div? (dividend divisor : Number) : Option Number :=
  if divisor.isZero then none else some (.float (dividend.toFloat / divisor.toFloat))

/-- The remainder of the floored quotient, with the divisor's sign; nothing for a zero divisor. -/
def rem? (dividend divisor : Number) : Option Number :=
  if divisor.isZero then
    none
  else
    match dividend, divisor with
    | .int left, .int right => some (.int (flooredWordRemainder left right))
    | left, right => some (.float (flooredRemainder left.toFloat right.toFloat))

/-- The greatest exponent of an exact power. -/
def greatestExponent : Nat := 0xFFFFFFFF

/--
The exact power of an integer, when it fits. Powers of zero and of units depend on the parity of the
exponent only, and no other power beyond the width of an integer fits.
-/
def exactPower? (base : Int64) (exponent : Nat) : Option Int64 :=
  if greatestExponent < exponent then
    none
  else if base.toInt.natAbs ≤ 1 then
    fit (base.toInt.pow (if exponent = 0 then 0 else 2 - exponent % 2))
  else if exponent < 64 then
    fit (base.toInt.pow exponent)
  else
    none

/-- The power of two numbers as floats. -/
def floatPower (base exponent : Number) : Number :=
  .float (Float.pow base.toFloat exponent.toFloat)

/-- The power, an integer while it is exact; nothing for a negative power of zero. -/
def pow? (base exponent : Number) : Option Number :=
  if base.isZero && decide (exponent.toFloat < 0) then
    none
  else
    match base, exponent with
    | .int value, .int count =>
      if count.toInt < 0 then
        some (floatPower base exponent)
      else
        match exactPower? value count.toInt.toNat with
        | some result => some (.int result)
        | none => some (floatPower base exponent)
    | _, _ => some (floatPower base exponent)

/-- The order of two numbers; an integer beside a float is rounded, and nothing answers for NaN. -/
def compare? : Number → Number → Option Ordering
  | .int left, .int right => some (compare left.toInt right.toInt)
  | left, right => compareFloats left.toFloat right.toFloat

/-- Two numbers are equal when their order says so. -/
def same (left right : Number) : Bool :=
  left.compare? right == some .eq

/-- The number as programs write it. -/
def text : Number → String
  | .int value => toString value.toInt
  | .float value => FloatStyle.plain.float value

/-- The integer one for a true condition, and the integer zero for a false one. -/
def ofBool (condition : Bool) : Number :=
  .int (if condition then 1 else 0)

end Number

end Scriptlet
