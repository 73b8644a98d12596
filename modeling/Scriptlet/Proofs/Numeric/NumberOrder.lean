import Scriptlet.Number
import Scriptlet.Proofs.Numeric.Conversion

/-!
The order of numbers. Two integers are in their own order; any other two numbers are in the order of
their ranks, where an integer has the rank of the float that it is converted to.
-/

namespace Scriptlet.Numeric

variable {exact low high rounded other value : ℚ} {word word' : Int64}

/-- What is not farther from the greater of two values is not below the middle of them. -/
theorem middle_le (less : low < high) (nearer : |high - exact| ≤ |low - exact|) :
    low + high ≤ 2 * exact := by
  by_contra below
  have away : |low - exact| < high - exact := abs_lt.mpr ⟨by linarith, by linarith⟩
  linarith [le_abs_self (high - exact)]

/-- What is not farther from the lesser of two values is not above the middle of them. -/
theorem le_middle (less : low < high) (nearer : |low - exact| ≤ |high - exact|) :
    2 * exact ≤ low + high := by
  by_contra above
  have away : |high - exact| < exact - low := abs_lt.mpr ⟨by linarith, by linarith⟩
  linarith [neg_le_abs (low - exact)]

/-- An integer is greater than the floats that are less than its own. -/
theorem Rounds.lt_of_lt (rounds : Rounds word rounded) {x : Float} (found : valueOf? x = some value)
    (less : value < rounded) : value < word.toInt := by
  linarith [middle_le less (rounds.nearest found)]

/-- An integer is less than the floats that are greater than its own. -/
theorem Rounds.gt_of_gt (rounds : Rounds word rounded) {x : Float} (found : valueOf? x = some value)
    (greater : rounded < value) : word.toInt < value := by
  linarith [le_middle greater (rounds.nearest found)]

/-- Conversion keeps the order of integers, though it may merge neighbours. -/
theorem Rounds.mono (rounds : Rounds word rounded) (rounds' : Rounds word' other)
    (less : word.toInt < word'.toInt) : rounded ≤ other := by
  -- Otherwise the lesser integer were not below the middle, and the greater one not above it.
  by_contra crossed
  have least := middle_le (not_le.mp crossed) (rounds.nearest rounds'.converted)
  have most := le_middle (not_le.mp crossed) (rounds'.nearest rounds.converted)
  have order : (word.toInt : ℚ) < word'.toInt := Int.cast_lt.mpr less
  linarith

/-- An integer beside a value is in the order of its float, unless the two are merged. -/
theorem Rounds.compare_eq_iff (rounds : Rounds word rounded) {x : Float}
    (found : valueOf? x = some value) :
    compare (word.toInt : ℚ) value = compare rounded value ↔
      (rounded = value → (word.toInt : ℚ) = value) := by
  rcases lt_trichotomy rounded value with less | same | greater
  · rw [compare_lt_iff_lt.mpr less, compare_lt_iff_lt.mpr (rounds.gt_of_gt found less)]
    exact iff_of_true rfl fun same => absurd same less.ne
  · rw [compare_eq_iff_eq.mpr same, compare_eq_iff_eq]
    exact ⟨fun equal _ => equal, fun equal => equal same⟩
  · rw [compare_gt_iff_gt.mpr greater, compare_gt_iff_gt.mpr (rounds.lt_of_lt found greater)]
    exact iff_of_true rfl fun same => absurd same greater.ne'

end Scriptlet.Numeric

namespace Scriptlet.Number

open Numeric

/-- Whether a number is a float that is no number. -/
def isNaN : Number → Bool
  | .int _ => false
  | .float value => value.isNaN

/-- The rank of a number: integers have that of their floats. -/
def rank? (number : Number) : Option Rank :=
  rankOf? number.toFloat

/-- An integer has a rank among the rationals. -/
theorem rank?_int {word : Int64} {rounded : ℚ} (rounds : Rounds word rounded) :
    (Number.int word).rank? = some (rounded : Rank) :=
  (rank?_unpack_eq_coe_iff ..).mpr rounds.converted

/-- A number has a rank unless it is none. -/
theorem rank?_eq_none_iff (number : Number) : number.rank? = none ↔ number.isNaN = true := by
  cases number with
  | int word =>
    obtain ⟨rounded, rounds⟩ := exists_rounds word
    rw [rank?_int rounds]
    exact ⟨nofun, nofun⟩
  | float value => exact rankOf?_eq_none_iff value

/-- Two integers that are in a relation. -/
def Integers (relation : Int → Int → Prop) (left right : Number) : Prop :=
  ∃ a b : Int64, left = .int a ∧ right = .int b ∧ relation a.toInt b.toInt

/-- No integer is different from itself. -/
theorem not_integers_ne_self (number : Number) : ¬ Integers (· ≠ ·) number number := by
  rintro ⟨a, b, rfl, ⟨⟩, apart⟩
  exact apart rfl

/-- What is a lesser integer than an integer is one than that integer under another name. -/
theorem Integers.lt_of_lt_of_same {p q s : Number} (less : Integers (· < ·) p q)
    (same : ¬ Integers (· ≠ ·) q s) (apart : Integers (· ≠ ·) p s) : Integers (· < ·) p s := by
  obtain ⟨a, b, rfl, rfl, less⟩ := less
  obtain ⟨_, c, ⟨⟩, rfl, -⟩ := apart
  have last : b.toInt = c.toInt := not_not.mp fun apart => same ⟨b, c, rfl, rfl, apart⟩
  exact ⟨a, c, rfl, rfl, last ▸ less⟩

/-- What is a greater integer than an integer is one than that integer under another name. -/
theorem Integers.lt_of_same_of_lt {p q s : Number} (same : ¬ Integers (· ≠ ·) p q)
    (less : Integers (· < ·) q s) (apart : Integers (· ≠ ·) p s) : Integers (· < ·) p s := by
  obtain ⟨b, c, rfl, rfl, less⟩ := less
  obtain ⟨a, _, rfl, ⟨⟩, -⟩ := apart
  have first : a.toInt = b.toInt := not_not.mp fun apart => same ⟨a, b, rfl, rfl, apart⟩
  exact ⟨a, c, rfl, rfl, first ▸ less⟩

/-- Two numbers are ordered as their ranks, unless both are integers. -/
theorem ranked_or_integers (left right : Number) :
    left.compare? right = Option.map₂ compare left.rank? right.rank? ∧
        (∀ relation, ¬ Integers relation left right) ∨
      ∃ a b : Int64, left = .int a ∧ right = .int b := by
  cases left with
  | int a =>
    cases right with
    | int b => exact .inr ⟨a, b, rfl, rfl⟩
    | float y => exact .inl ⟨compareFloats_eq _ _, fun _ ⟨_, _, _, same, _⟩ => nomatch same⟩
  | float x => exact .inl ⟨compareFloats_eq _ _, fun _ ⟨_, _, same, _⟩ => nomatch same⟩

/-- No number is in any order with one that is none. -/
theorem compare?_eq_none_iff (left right : Number) :
    left.compare? right = none ↔ left.isNaN = true ∨ right.isNaN = true := by
  rcases ranked_or_integers left right with ⟨ranked, -⟩ | ⟨a, b, rfl, rfl⟩
  · rw [ranked, Option.map₂_eq_none_iff, rank?_eq_none_iff, rank?_eq_none_iff]
  · exact ⟨nofun, nofun⟩

section Ranked

variable {left right : Number} {one other : Rank}

/-- Two numbers are equal if their ranks are, unless they are different integers. -/
theorem compare?_eq_eq_iff (found : left.rank? = some one) (found' : right.rank? = some other) :
    left.compare? right = some .eq ↔ one = other ∧ ¬ Integers (· ≠ ·) left right := by
  rcases ranked_or_integers left right with ⟨ranked, mixed⟩ | ⟨a, b, rfl, rfl⟩
  · rw [ranked, found, found', Option.map₂_some_some, Option.some_inj, compare_eq_iff_eq]
    exact (and_iff_left (mixed _)).symm
  · show some (compare a.toInt b.toInt) = some .eq ↔ _
    rw [Option.some_inj, compare_eq_iff_eq]
    constructor
    · intro same
      cases Int64.toInt_inj.mp same
      exact ⟨Option.some.inj (found.symm.trans found'), not_integers_ne_self _⟩
    · rintro ⟨-, together⟩
      by_contra apart
      exact together ⟨a, b, rfl, rfl, apart⟩

/-- A number is less than another if its rank is, or if they are integers that were merged. -/
theorem compare?_eq_lt_iff (found : left.rank? = some one) (found' : right.rank? = some other) :
    left.compare? right = some .lt ↔ one < other ∨ one = other ∧ Integers (· < ·) left right := by
  rcases ranked_or_integers left right with ⟨ranked, mixed⟩ | ⟨a, b, rfl, rfl⟩
  · rw [ranked, found, found', Option.map₂_some_some, Option.some_inj, compare_lt_iff_lt]
    exact (or_iff_left fun ⟨_, integers⟩ => mixed _ integers).symm
  · obtain ⟨rounded, rounds⟩ := exists_rounds a
    obtain ⟨rounded', rounds'⟩ := exists_rounds b
    obtain rfl : (rounded : Rank) = one := Option.some.inj ((rank?_int rounds).symm.trans found)
    obtain rfl : (rounded' : Rank) = other :=
      Option.some.inj ((rank?_int rounds').symm.trans found')
    show some (compare a.toInt b.toInt) = some .lt ↔ _
    rw [Option.some_inj, compare_lt_iff_lt]
    constructor
    · intro less
      have order : (rounded : Rank) ≤ rounded' :=
        WithBotTop.coe_le_coe.mpr (rounds.mono rounds' less)
      exact order.lt_or_eq.imp_right fun same => ⟨same, a, b, rfl, rfl, less⟩
    · rintro (less | ⟨-, _, _, ⟨⟩, ⟨⟩, less⟩)
      · -- Were the second integer not greater, its rank would not be, either.
        have order : rounded < rounded' := WithBotTop.coe_lt_coe.mp less
        rcases lt_trichotomy a.toInt b.toInt with first | same | second
        · exact first
        · cases Int64.toInt_inj.mp same
          cases rounds.converted.symm.trans rounds'.converted
          exact absurd order (lt_irrefl _)
        · exact absurd (rounds'.mono rounds second) (not_le.mpr order)
      · exact less

end Ranked

/-- A number equals itself unless it is none. -/
theorem same_self_iff (number : Number) : number.same number = true ↔ number.isNaN = false := by
  rw [same, beq_iff_eq]
  cases found : number.rank? with
  | none =>
    have none := (rank?_eq_none_iff number).mp found
    rw [(compare?_eq_none_iff number number).mpr (.inl none), none]
    exact ⟨nofun, nofun⟩
  | some rank =>
    have some : number.isNaN = false := by
      rw [← Bool.not_eq_true, ← rank?_eq_none_iff, found]
      nofun
    rw [compare?_eq_eq_iff found found]
    exact iff_of_true ⟨rfl, not_integers_ne_self number⟩ some

end Scriptlet.Number
