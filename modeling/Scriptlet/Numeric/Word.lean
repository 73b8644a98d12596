/-! Signed 64-bit integers, seen as the exact integers that fit into them. -/

namespace Scriptlet.Numeric

/-- The least exact integer that fits. -/
def leastWord : Int := -0x8000000000000000

/-- The greatest exact integer that fits. -/
def greatestWord : Int := 0x7FFFFFFFFFFFFFFF

/-- The 64-bit integer that equals an exact integer, when there is one. -/
def fit (exact : Int) : Option Int64 :=
  if leastWord ≤ exact ∧ exact ≤ greatestWord then some (Int64.ofInt exact) else none

/-- A count as an integer; counts beyond the greatest integer become it. -/
def ofCount (count : Nat) : Int64 :=
  Int64.ofInt (min (count : Int) greatestWord)

/--
The remainder of a division whose quotient is cut toward zero. There is none by zero, nor where the
quotient does not fit.
-/
def truncatedWordRemainder? (dividend divisor : Int64) : Option Int64 :=
  if divisor = 0 ∨ fit (dividend.toInt.tdiv divisor.toInt) = none then none
  else some (dividend % divisor)

/--
The remainder of a division whose quotient is floored: it has the sign of the divisor. Where there
is no other remainder, it is zero.
-/
def flooredWordRemainder (dividend divisor : Int64) : Int64 :=
  let rest := (truncatedWordRemainder? dividend divisor).getD 0
  if rest != 0 && decide (rest < 0) != decide (divisor < 0) then rest + divisor else rest

/-- The float nearest to an integer, where ties go to the even neighbour. -/
def toFloat (word : Int64) : Float :=
  Float.ofInt word.toInt

/-- The number that a run of decimal digits writes; nothing for no digits or other characters. -/
def readDigits : List Char → Option Nat
  | [] => none
  | chars =>
    chars.foldl
      (fun value c => value.bind fun n =>
        if c.isDigit then some (10 * n + (c.toNat - 48)) else none)
      (some 0)

/-- Reads decimal digits after at most one sign, as an integer that fits. -/
def readWord : List Char → Option Int64
  | '-' :: digits => (readDigits digits).bind fun magnitude => fit (-magnitude)
  | '+' :: digits => (readDigits digits).bind fun magnitude => fit magnitude
  | digits => (readDigits digits).bind fun magnitude => fit magnitude

/--
The offset that an index means in a sequence of the given length: negative indices count back from
the end, and nothing answers an index outside the sequence.
-/
def resolveIndex (index : Int64) (length : Nat) : Option Nat :=
  let offset := if index.toInt < 0 then length + index.toInt else index.toInt
  if 0 ≤ offset ∧ offset < length then some offset.toNat else none

/-- How often a count asks for something; a negative count asks for nothing. -/
def repetitions (count : Int64) : Nat :=
  count.toInt.toNat

/-- The exact integer of a word lies between the two bounds. -/
theorem toInt_bounds (word : Int64) : leastWord ≤ word.toInt ∧ word.toInt ≤ greatestWord := by
  -- The bounds of the machine type are these two constants.
  have low := Int64.le_toInt word
  have high := Int64.toInt_lt word
  simp only [leastWord, greatestWord]
  omega

/-- Fitting succeeds exactly for the exact integers of words. -/
theorem fit_eq_some_iff {exact : Int} {word : Int64} :
    fit exact = some word ↔ word.toInt = exact := by
  -- Within the bounds the conversion loses nothing.
  unfold fit
  constructor
  · intro found
    split at found
    · rename_i inside
      simp only [leastWord, greatestWord] at inside
      cases found
      exact Int64.toInt_ofInt_of_le (by omega) (by omega)
    · cases found
  · rintro rfl
    rw [if_pos (toInt_bounds word), Int64.ofInt_toInt]

/-- Fitting fails exactly outside the bounds. -/
theorem fit_eq_none_iff {exact : Int} :
    fit exact = none ↔ exact < leastWord ∨ greatestWord < exact := by
  -- The test of the definition is the negation.
  unfold fit
  split
  · rename_i inside
    simp only [reduceCtorEq, false_iff]
    omega
  · rename_i outside
    simp only [true_iff]
    omega

end Scriptlet.Numeric
