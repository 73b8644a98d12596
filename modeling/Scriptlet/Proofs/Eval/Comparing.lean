import Scriptlet.Operation
import Scriptlet.Proofs.Numeric.NumberOrder

/-!
Comparisons of numbers. An integer beside a float is compared by the value of the float that it is
converted to, which is the nearest one. Where two integers are converted to one float, both equal
it, and that is all that comparisons lack of a linear order of the numbers.
-/

namespace Scriptlet

open Numeric

/-- What an operator for comparisons says of two rationals. -/
def BinaryOperator.relation? : BinaryOperator → Option (ℚ → ℚ → Bool)
  | .equal => some fun left right => left = right
  | .notEqual => some fun left right => left ≠ right
  | .less => some fun left right => left < right
  | .greater => some fun left right => left > right
  | .lessEqual => some fun left right => left ≤ right
  | .greaterEqual => some fun left right => left ≥ right
  | _ => none

namespace Operation

/-- A comparison of two numbers comes out true. -/
def Holds (operator : BinaryOperator) (left right : Number) (memory : Memory) (store : Store) :
    Prop :=
  binary memory operator (.number left) (.number right) store = .ok (.value (.ofBool true))

/--
The six comparisons of an integer and a float, in both orders, have the results that they have
between two rationals.
-/
def Compared (value other : ℚ) (word : Int64) (x : Float) (memory : Memory) (store : Store) :
    Prop :=
  ∀ operator relation, BinaryOperator.relation? operator = some relation →
    binary memory operator (.number (.int word)) (.number (.float x)) store =
        .ok (.value (.ofBool (relation value other))) ∧
      binary memory operator (.number (.float x)) (.number (.int word)) store =
        .ok (.value (.ofBool (relation other value)))

/--
The laws of comparisons between numbers. They are those of a linear order but for integers that are
equal to one float: such integers are not equal for that, and one of them may be less than another.
-/
structure OrderLaws (memory : Memory) (store : Store) : Prop where
  equal_refl {p : Number} (number : p.isNaN = false) : Holds .equal p p memory store
  equal_symm {p q : Number} (equal : Holds .equal p q memory store) : Holds .equal q p memory store
  less_irrefl (p : Number) : ¬ Holds .less p p memory store
  less_trans {p q s : Number} (first : Holds .less p q memory store)
    (second : Holds .less q s memory store) :
    Holds .less p s memory store
  less_total {p q : Number} (number : p.isNaN = false) (number' : q.isNaN = false) :
    Holds .less p q memory store ∨ Holds .equal p q memory store ∨ Holds .less q p memory store
  not_equal_of_less {p q : Number} (less : Holds .less p q memory store) :
    ¬ Holds .equal p q memory store
  equal_trans {p q s : Number} (first : Holds .equal p q memory store)
    (second : Holds .equal q s memory store) :
    Holds .equal p s memory store ↔ ¬ Number.Integers (· ≠ ·) p s
  less_of_less_of_equal {p q s : Number} (first : Holds .less p q memory store)
    (second : Holds .equal q s memory store) :
    Holds .less p s memory store ∨ Number.Integers (· < ·) p q ∧ Holds .equal p s memory store
  less_of_equal_of_less {p q s : Number} (first : Holds .equal p q memory store)
    (second : Holds .less q s memory store) :
    Holds .less p s memory store ∨ Number.Integers (· < ·) q s ∧ Holds .equal p s memory store

variable {p q s : Number} {memory : Memory} {store : Store}

/-- Results of comparisons are the same when what they say is. -/
theorem ok_ofBool_inj {one other : Bool} :
    (Except.ok (.value (.ofBool one)) : Except Fault Result) = .ok (.value (.ofBool other)) ↔
      one = other := by
  revert one other
  decide

/-- Two numbers are equal where their order says so. -/
theorem holds_equal_iff : Holds .equal p q memory store ↔ p.compare? q = some .eq := by
  have evaluated : binary memory .equal (.number p) (.number q) store =
      .ok (.value (.ofBool (p.compare? q == some .eq))) := rfl
  rw [Holds, evaluated, ok_ofBool_inj, beq_iff_eq]

/-- A number is less than another where their order says so. -/
theorem holds_less_iff : Holds .less p q memory store ↔ p.compare? q = some .lt := by
  have evaluated : binary memory .less (.number p) (.number q) store =
      .ok (.value (.ofBool (p.compare? q == some .lt))) := rfl
  rw [Holds, evaluated, ok_ofBool_inj, beq_iff_eq]

/-- Numbers that are ordered like two rationals are compared like them. -/
theorem binary_relation {value other : ℚ} (order : p.compare? q = some (compare value other))
    {operator : BinaryOperator} {relation : ℚ → ℚ → Bool}
    (found : operator.relation? = some relation) (memory : Memory) (store : Store) :
    binary memory operator (.number p) (.number q) store =
      .ok (.value (.ofBool (relation value other))) := by
  cases operator with
  | add | sub | mul | div | rem | pow | and | or => cases found
  | equal | notEqual | less | greater | lessEqual | greaterEqual =>
    cases found
    refine ok_ofBool_inj.mpr ?_
    rw [order]
    -- One case for each order of the two rationals.
    rcases lt_trichotomy value other with less | same | greater
    · simp [compare_lt_iff_lt.mpr less, less, less.le, less.ne, not_lt.mpr less.le,
        not_le.mpr less]
    · simp [same]
    · simp [compare_gt_iff_gt.mpr greater, greater, greater.le, greater.ne',
        not_lt.mpr greater.le, not_le.mpr greater]

section Rounded

variable {word : Int64} {rounded value : ℚ} {x : Float}

/-- An integer and a float are compared like rationals in the order of their floats. -/
theorem compared_of_compare (rounds : Rounds word rounded) (found : valueOf? x = some value)
    {one : ℚ} (same : compare one value = compare rounded value) (memory : Memory) (store : Store) :
    Compared one value word x memory store := by
  have rank : (Number.float x).rank? = some (value : Rank) := (rank?_unpack_eq_coe_iff ..).mpr found
  have order : (Number.int word).compare? (.float x) = some (compare one value) := by
    rw [same, ← compare_coe_rank]
    exact (compareFloats_eq ..).trans (congrArg₂ _ (Number.rank?_int rounds) rank)
  have order' : (Number.float x).compare? (.int word) = some (compare value one) := by
    rw [Std.OrientedOrd.eq_swap, same, ← Std.OrientedOrd.eq_swap, ← compare_coe_rank]
    exact (compareFloats_eq ..).trans (congrArg₂ _ rank (Number.rank?_int rounds))
  exact fun operator relation known =>
    ⟨binary_relation order known memory store, binary_relation order' known memory store⟩

/-- They are compared by their exact values unless conversion has merged those. -/
theorem compared_exact_iff (rounds : Rounds word rounded) (found : valueOf? x = some value)
    (memory : Memory) (store : Store) :
    Compared word.toInt value word x memory store ↔
      (rounded = value → (word.toInt : ℚ) = value) := by
  constructor
  · intro exact same
    -- Equality alone tells the two apart.
    have evaluated := (exact .equal _ rfl).1
    rw [(compared_of_compare rounds found rfl memory store .equal _ rfl).1, ok_ofBool_inj,
      decide_eq_decide] at evaluated
    exact evaluated.mp same
  · intro together
    exact compared_of_compare rounds found ((rounds.compare_eq_iff found).mpr together) memory store

end Rounded

/-! ### Laws -/

/-- A number has a rank. -/
theorem exists_rank (number : p.isNaN = false) : ∃ rank, p.rank? = some rank := by
  have some_rank : p.rank? ≠ none := by
    rw [Ne, Number.rank?_eq_none_iff, number]
    exact Bool.false_ne_true
  exact Option.ne_none_iff_exists'.mp some_rank

/-- Numbers that are in some order have ranks. -/
theorem exists_ranks {order : Ordering} (ordered : p.compare? q = some order) :
    ∃ one other, p.rank? = some one ∧ q.rank? = some other := by
  have numbers : ¬ (p.isNaN = true ∨ q.isNaN = true) := by
    rw [← Number.compare?_eq_none_iff, ordered]
    nofun
  rw [not_or, Bool.not_eq_true, Bool.not_eq_true] at numbers
  obtain ⟨one, found⟩ := exists_rank numbers.1
  obtain ⟨other, found'⟩ := exists_rank numbers.2
  exact ⟨one, other, found, found'⟩

/-- Equal numbers have one rank, and are not different integers. -/
theorem exists_rank_of_equal (equal : Holds .equal p q memory store) :
    ∃ rank, p.rank? = some rank ∧ q.rank? = some rank ∧ ¬ Number.Integers (· ≠ ·) p q := by
  rw [holds_equal_iff] at equal
  obtain ⟨one, other, found, found'⟩ := exists_ranks equal
  obtain ⟨rfl, together⟩ := (Number.compare?_eq_eq_iff found found').mp equal
  exact ⟨one, found, found', together⟩

/-- A number that is less than another has a lesser rank, or both are integers of one rank. -/
theorem exists_ranks_of_less (less : Holds .less p q memory store) :
    ∃ one other, p.rank? = some one ∧ q.rank? = some other ∧
      (one < other ∨ one = other ∧ Number.Integers (· < ·) p q) := by
  rw [holds_less_iff] at less
  obtain ⟨one, other, found, found'⟩ := exists_ranks less
  exact ⟨one, other, found, found', (Number.compare?_eq_lt_iff found found').mp less⟩

/-- Numbers of one rank are equal if they are not different integers. -/
theorem equal_of_rank {rank : Rank} (found : p.rank? = some rank) (found' : q.rank? = some rank)
    (together : ¬ Number.Integers (· ≠ ·) p q) : Holds .equal p q memory store :=
  holds_equal_iff.mpr ((Number.compare?_eq_eq_iff found found').mpr ⟨rfl, together⟩)

/-- A number of a lesser rank, or a lesser integer of the same rank, is less than another. -/
theorem less_of_ranks {one other : Rank} (found : p.rank? = some one)
    (found' : q.rank? = some other)
    (less : one < other ∨ one = other ∧ Number.Integers (· < ·) p q) :
    Holds .less p q memory store :=
  holds_less_iff.mpr ((Number.compare?_eq_lt_iff found found').mpr less)

/-- Of three numbers in a row the first one is less than the last one. -/
theorem less_trans (first : Holds .less p q memory store)
    (second : Holds .less q s memory store) :
    Holds .less p s memory store := by
  obtain ⟨one, two, found, found', less⟩ := exists_ranks_of_less first
  obtain ⟨two', three, again, found'', less'⟩ := exists_ranks_of_less second
  cases found'.symm.trans again
  refine less_of_ranks found found'' ?_
  -- Only where no rank grows do the integers decide, and then all three numbers are integers.
  rcases less with less | ⟨rfl, a, b, rfl, rfl, less⟩
  · exact .inl (less'.elim less.trans fun same => same.1 ▸ less)
  · rcases less' with less' | ⟨rfl, _, c, ⟨⟩, rfl, less'⟩
    · exact .inl less'
    · exact .inr ⟨rfl, a, c, rfl, rfl, less.trans less'⟩

/-- Two numbers are equal, or one of them is less than the other. -/
theorem less_total (number : p.isNaN = false) (number' : q.isNaN = false) :
    Holds .less p q memory store ∨ Holds .equal p q memory store ∨
      Holds .less q p memory store := by
  obtain ⟨one, found⟩ := exists_rank number
  obtain ⟨other, found'⟩ := exists_rank number'
  rcases lt_trichotomy one other with less | rfl | greater
  · exact .inl (less_of_ranks found found' (.inl less))
  · by_cases apart : Number.Integers (· ≠ ·) p q
    · obtain ⟨a, b, rfl, rfl, apart⟩ := apart
      rcases lt_or_gt_of_ne apart with less | greater
      · exact .inl (less_of_ranks found found' (.inr ⟨rfl, a, b, rfl, rfl, less⟩))
      · exact .inr (.inr (less_of_ranks found' found (.inr ⟨rfl, b, a, rfl, rfl, greater⟩)))
    · exact .inr (.inl (equal_of_rank found found' apart))
  · exact .inr (.inr (less_of_ranks found' found (.inl greater)))

/-- Numbers that equal one number are equal unless they are different integers. -/
theorem equal_trans_iff (first : Holds .equal p q memory store)
    (second : Holds .equal q s memory store) :
    Holds .equal p s memory store ↔ ¬ Number.Integers (· ≠ ·) p s := by
  obtain ⟨rank, found, found', -⟩ := exists_rank_of_equal first
  obtain ⟨rank', again, found'', -⟩ := exists_rank_of_equal second
  cases found'.symm.trans again
  rw [holds_equal_iff, Number.compare?_eq_eq_iff found found'']
  exact and_iff_right rfl

/-- A number that equals a greater one is greater, or equal if conversion has merged the two. -/
theorem less_of_less_of_equal (first : Holds .less p q memory store)
    (second : Holds .equal q s memory store) :
    Holds .less p s memory store ∨ Number.Integers (· < ·) p q ∧ Holds .equal p s memory store := by
  obtain ⟨one, two, found, found', less⟩ := exists_ranks_of_less first
  obtain ⟨two', again, found'', same⟩ := exists_rank_of_equal second
  cases found'.symm.trans again
  rcases less with less | ⟨rfl, integers⟩
  · exact .inl (less_of_ranks found found'' (.inl less))
  · by_cases apart : Number.Integers (· ≠ ·) p s
    · exact .inl (less_of_ranks found found'' (.inr ⟨rfl, integers.lt_of_lt_of_same same apart⟩))
    · exact .inr ⟨integers, equal_of_rank found found'' apart⟩

/-- A number that equals a lesser one is less, or equal if conversion has merged the two. -/
theorem less_of_equal_of_less (first : Holds .equal p q memory store)
    (second : Holds .less q s memory store) :
    Holds .less p s memory store ∨ Number.Integers (· < ·) q s ∧ Holds .equal p s memory store := by
  obtain ⟨one, found, found', same⟩ := exists_rank_of_equal first
  obtain ⟨one', two, again, found'', less⟩ := exists_ranks_of_less second
  cases found'.symm.trans again
  rcases less with less | ⟨rfl, integers⟩
  · exact .inl (less_of_ranks found found'' (.inl less))
  · by_cases apart : Number.Integers (· ≠ ·) p s
    · exact .inl (less_of_ranks found found'' (.inr ⟨rfl, .lt_of_same_of_lt same integers apart⟩))
    · exact .inr ⟨integers, equal_of_rank found found'' apart⟩

/-- Comparisons of numbers have the laws of a linear order, except where integers are merged. -/
theorem orderLaws (memory : Memory) (store : Store) : OrderLaws memory store where
  equal_refl {p} number :=
    holds_equal_iff.mpr (beq_iff_eq.mp ((Number.same_self_iff p).mpr number))
  equal_symm equal := by
    obtain ⟨rank, found, found', together⟩ := exists_rank_of_equal equal
    exact equal_of_rank found' found fun ⟨b, a, second, first, apart⟩ =>
      together ⟨a, b, first, second, apart.symm⟩
  less_irrefl p less := by
    obtain ⟨one, other, found, found', less | ⟨-, a, b, rfl, ⟨⟩, less⟩⟩ := exists_ranks_of_less less
    · cases found.symm.trans found'
      exact lt_irrefl one less
    · exact lt_irrefl _ less
  less_trans := less_trans
  less_total := less_total
  not_equal_of_less less equal := by
    rw [holds_less_iff] at less
    rw [holds_equal_iff, less] at equal
    cases equal
  equal_trans := equal_trans_iff
  less_of_less_of_equal := less_of_less_of_equal
  less_of_equal_of_less := less_of_equal_of_less

/--
An integer beside a float is compared by the value of the float nearest to it, which is the same as
by its own value unless conversion makes it equal to the float. Comparisons of numbers have the laws
of a linear order, except where different integers equal one float.
-/
theorem comparisons_rounded (memory : Memory) (store : Store) :
    (∀ word : Int64, ∃ rounded, Rounds word rounded ∧
      ∀ (x : Float) (value : ℚ), valueOf? x = some value →
        Compared rounded value word x memory store ∧
          (Compared word.toInt value word x memory store ↔
            (rounded = value → (word.toInt : ℚ) = value))) ∧
      OrderLaws memory store := by
  refine ⟨fun word => ?_, orderLaws memory store⟩
  obtain ⟨rounded, rounds⟩ := exists_rounds word
  exact ⟨rounded, rounds, fun x value found =>
    ⟨compared_of_compare rounds found rfl memory store,
      compared_exact_iff rounds found memory store⟩⟩

/-- The first integer that no float has the value of is compared like its neighbour. -/
theorem comparisons_rounded_merged :
    valueOf? (Float.ofBits 0x4340000000000000) = some 9007199254740992 ∧
      Rounds 9007199254740993 9007199254740992 ∧
      Compared 9007199254740992 9007199254740992 9007199254740993
        (Float.ofBits 0x4340000000000000) .gibibyte .empty := by
  have known : valueOf? (Float.ofBits 0x4340000000000000) = some 9007199254740992 := by
    decide +kernel
  have converted : valueOf? (toFloat 9007199254740993) = some 9007199254740992 := by
    decide +kernel
  obtain ⟨rounded, rounds, compared⟩ := (comparisons_rounded .gibibyte .empty).1 9007199254740993
  cases rounds.converted.symm.trans converted
  exact ⟨known, rounds, (compared _ _ known).1⟩

/-- An integer equals a float of another value, and so does the integer of that value. -/
theorem equality_merges :
    valueOf? (Float.ofBits 0x4340000000000000) = some 9007199254740992 ∧
      ¬ Compared 9007199254740993 9007199254740992 9007199254740993
        (Float.ofBits 0x4340000000000000) .gibibyte .empty ∧
      Holds .equal (.int 9007199254740993) (.float (Float.ofBits 0x4340000000000000)) .gibibyte
        .empty ∧
      Holds .equal (.float (Float.ofBits 0x4340000000000000)) (.int 9007199254740992) .gibibyte
        .empty ∧
      ¬ Holds .equal (.int 9007199254740993) (.int 9007199254740992) .gibibyte .empty := by
  refine ⟨by decide +kernel, fun compared => ?_, ?_⟩
  · -- Rationals that differ are not equal, but the two numbers are.
    have evaluated := (compared .equal _ rfl).1
    revert evaluated
    decide +kernel
  · unfold Holds
    decide +kernel

end Operation

end Scriptlet
