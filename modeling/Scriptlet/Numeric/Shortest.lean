import Scriptlet.Numeric.Binary64

/-! The shortest decimal that reads back as a given float, and its text. -/

namespace Scriptlet.Numeric

/--
The reals that round to a positive float, counted in quarters of its last place: the float is
`centre`, and `closed` tells whether the two ends round to it as well.
-/
structure Neighbourhood where
  below : Nat
  centre : Nat
  above : Nat
  exponent : Int
  closed : Bool
deriving Repr

/-- Where a float's last place has just doubled, the reals below it are half as far away. -/
def Binary64.neighbourhood (value : Binary64) : Neighbourhood :=
  let centre := 4 * value.significand
  let narrow := value.significand = leadingBit ∧ lowestExponent < value.exponent
  { below := centre - if narrow then 1 else 2
    centre
    above := centre + 2
    exponent := value.exponent - 2
    closed := value.significand % 2 = 0 }

/-- The natural numbers that compare as one quarter and as a power of ten do. -/
def Neighbourhood.units (reals : Neighbourhood) (power : Int) : Nat × Nat :=
  (Nat.pow 2 reals.exponent.toNat * Nat.pow 10 (-power).toNat,
    Nat.pow 10 power.toNat * Nat.pow 2 (-reals.exponent).toNat)

/--
The multiple of a power of ten that lies among the reals, as the multiplier. Of two, the nearer to
the float is taken, and of two equally near ones the greater.
-/
def Neighbourhood.multiple? (reals : Neighbourhood) (power : Int) : Option Nat :=
  let (quarter, unit) := reals.units power
  let inside (count : Nat) : Bool :=
    if reals.closed then
      reals.below * quarter ≤ count * unit ∧ count * unit ≤ reals.above * quarter
    else
      reals.below * quarter < count * unit ∧ count * unit < reals.above * quarter
  let lower := reals.centre * quarter / unit
  let upper := lower + 1
  match inside lower, inside upper with
  | true, true =>
    if 2 * (reals.centre * quarter) < (lower + upper) * unit then some lower else some upper
  | true, false => some lower
  | false, true => some upper
  | false, false => none

/-- The least power of ten above the float. -/
def Neighbourhood.point (reals : Neighbourhood) : Int :=
  -- The logarithm is known to within one, so one of three powers is the least.
  let estimate := (reals.exponent + reals.centre.log2) * 30103 / 100000
  let below (power : Int) : Bool :=
    let (quarter, unit) := reals.units power
    reals.centre * quarter < unit
  ([estimate, estimate + 1].find? below).getD (estimate + 2)

/-- Digits with the place of the decimal point: `0.d₁d₂…` times ten to the power `point`. -/
structure Decimal where
  digits : List Char
  point : Int
deriving DecidableEq, Repr

/-- A multiple of a power of ten, without the zeros that end its digits. -/
def Decimal.ofMultiple (count : Nat) (power : Int) : Decimal :=
  let digits := Nat.toDigits 10 count
  { digits := (digits.reverse.dropWhile (· == '0')).reverse, point := digits.length + power }

/-- The decimal with the fewest digits that reads back as a positive float. -/
def Binary64.shortest (value : Binary64) : Decimal :=
  let reals := value.neighbourhood
  let point := reals.point
  let candidate (length : Nat) : Option Decimal :=
    let power := point - (length + 1 : Nat)
    (reals.multiple? power).map (Decimal.ofMultiple · power)
  -- Seventeen digits tell any two floats apart.
  ((List.range 17).findSome? candidate).getD (Decimal.ofMultiple 0 0)

/-- How floats are written: which decimal points are written in place, and the texts of the rest. -/
structure FloatStyle where
  leastPoint : Int
  greatestPoint : Int
  exponentMark : String
  notANumber : String
  infinity : String

/--
Values from `0.0001` up to `1e16` have their point in place and at least one digit on each side of
it, and all others have one digit before the point and an exponent without a plus sign.
-/
def FloatStyle.plain : FloatStyle :=
  { leastPoint := -3
    greatestPoint := 16
    exponentMark := "e"
    notANumber := "NaN"
    infinity := "inf" }

/-- The text of a positive decimal. -/
def FloatStyle.decimal (style : FloatStyle) (value : Decimal) : String :=
  let zeros (count : Nat) := List.replicate count '0'
  let digits := value.digits
  if style.leastPoint ≤ value.point ∧ value.point ≤ style.greatestPoint then
    if value.point ≤ 0 then
      String.ofList ('0' :: '.' :: (zeros (-value.point).toNat ++ digits))
    else if digits.length ≤ value.point.toNat then
      String.ofList (digits ++ zeros (value.point.toNat - digits.length) ++ ['.', '0'])
    else
      String.ofList (digits.take value.point.toNat ++ '.' :: digits.drop value.point.toNat)
  else
    let fraction := if digits.length ≤ 1 then [] else '.' :: digits.drop 1
    String.ofList (digits.take 1 ++ fraction) ++ style.exponentMark ++ toString (value.point - 1)

/-- The text of a float; zero keeps its sign. -/
def FloatStyle.float (style : FloatStyle) (x : Float) : String :=
  match Binary64.ofFloat? x with
  | none =>
    if x.isNaN then style.notANumber
    else if x < 0 then "-" ++ style.infinity
    else style.infinity
  | some value =>
    let magnitude := if value.significand = 0 then "0.0" else style.decimal value.shortest
    if value.negative then "-" ++ magnitude else magnitude

end Scriptlet.Numeric
