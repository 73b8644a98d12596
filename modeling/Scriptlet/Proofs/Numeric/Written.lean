import Scriptlet.Numeric.Word
import Scriptlet.Text.Blank
import Mathlib.Data.List.TakeWhile

/-!
Integers as they are written: digits behind at most one sign. A line may have blanks before and
behind its integer.
-/

namespace Scriptlet

namespace Numeric

/-- Digits, at least one of them, and the number that they write. -/
structure Numeral (digits : List Char) (magnitude : Nat) : Prop where
  some : digits ≠ []
  each : ∀ c ∈ digits, c.isDigit = true
  value : Nat.ofDigitChars 10 digits 0 = magnitude

/-- How an integer is written: without a sign, or behind one. -/
inductive Writes : List Char → Int → Prop where
  | unsigned {digits : List Char} {magnitude : Nat} (numeral : Numeral digits magnitude) :
    Writes digits magnitude
  | plus {digits : List Char} {magnitude : Nat} (numeral : Numeral digits magnitude) :
    Writes ('+' :: digits) magnitude
  | minus {digits : List Char} {magnitude : Nat} (numeral : Numeral digits magnitude) :
    Writes ('-' :: digits) (-magnitude)

section Digits

variable {digits : List Char} {magnitude : Nat}

/-- Digits are read from the left, each one behind what was read before it. -/
theorem foldl_readDigits (each : ∀ c ∈ digits, c.isDigit = true) :
    ∀ before : Nat, digits.foldl
      (fun value c => value.bind fun n =>
        if c.isDigit then some (10 * n + (c.toNat - 48)) else none) (some before) =
      some (Nat.ofDigitChars 10 digits before) := by
  -- The induction goes along the digits.
  induction digits with
  | nil => simp
  | cons c digits ih =>
    intro before
    rw [List.forall_mem_cons] at each
    simp only [List.foldl_cons, Option.bind_some, each.1, if_true]
    rw [ih each.2, Nat.ofDigitChars_cons]
    rfl

/-- Whatever is read by that is digits. -/
theorem isDigit_of_foldl_readDigits : ∀ {start : Option Nat}, digits.foldl
      (fun value c => value.bind fun n =>
        if c.isDigit then some (10 * n + (c.toNat - 48)) else none) start = some magnitude →
    start ≠ none ∧ ∀ c ∈ digits, c.isDigit = true := by
  -- The induction goes along the characters; nothing comes of nothing.
  induction digits with
  | nil =>
    rintro start rfl
    exact ⟨nofun, nofun⟩
  | cons c digits ih =>
    intro start found
    obtain ⟨begun, each⟩ := ih found
    cases start with
    | none => exact absurd rfl begun
    | some before =>
      refine ⟨nofun, List.forall_mem_cons.mpr ⟨?_, each⟩⟩
      cases digit : c.isDigit with
      | true => rfl
      | false => simp [digit] at begun

/-- Digits are read as the number that they write. -/
theorem readDigits_eq (some : digits ≠ []) (each : ∀ c ∈ digits, c.isDigit = true) :
    readDigits digits = Option.some (Nat.ofDigitChars 10 digits 0) := by
  obtain ⟨first, digits, rfl⟩ := List.exists_cons_of_ne_nil some
  exact foldl_readDigits each 0

/-- Only numerals are read as digits. -/
theorem readDigits_eq_some_iff : readDigits digits = some magnitude ↔ Numeral digits magnitude := by
  constructor
  · intro found
    cases digits with
    | nil => cases found
    | cons first digits =>
      have each := (isDigit_of_foldl_readDigits found).2
      rw [readDigits_eq (List.cons_ne_nil _ _) each] at found
      exact ⟨List.cons_ne_nil _ _, each, Option.some.inj found⟩
  · rintro ⟨some, each, rfl⟩
    exact readDigits_eq some each

/-- What starts with a digit is read as digits without a sign. -/
theorem readWord_of_isDigit {first : Char} {rest : List Char} (digit : first.isDigit = true) :
    readWord (first :: rest) =
      (readDigits (first :: rest)).bind fun magnitude => fit magnitude := by
  -- Neither of the signs is a digit.
  unfold readWord
  split
  · rename_i same
    cases same
    cases digit
  · rename_i same
    cases same
    cases digit
  · rfl

/-- Digits that write no word write more than the greatest one. -/
theorem readWord_eq_none_iff {first : Char} (digit : first.isDigit = true)
    (each : ∀ c ∈ digits, c.isDigit = true) :
    readWord (first :: digits) = none ↔
      greatestWord < (Nat.ofDigitChars 10 (first :: digits) 0 : Int) := by
  rw [readWord_of_isDigit digit, readDigits_eq (List.cons_ne_nil _ _)
    (List.forall_mem_cons.mpr ⟨digit, each⟩), Option.bind_some, fit_eq_none_iff]
  -- What digits write is not negative.
  refine or_iff_right (Int.not_lt.mpr ?_)
  exact Int.le_trans (by decide) (Int.natCast_nonneg _)

/-- A word is read from characters if and only if they write it. -/
theorem readWord_eq_some_iff {chars : List Char} {word : Int64} :
    readWord chars = some word ↔ Writes chars word.toInt := by
  constructor
  · intro found
    -- One case for each sign, and one for none.
    unfold readWord at found
    split at found <;> obtain ⟨magnitude, read, fits⟩ := Option.bind_eq_some_iff.mp found <;>
      rw [fit_eq_some_iff.mp fits]
    · exact .minus (readDigits_eq_some_iff.mp read)
    · exact .plus (readDigits_eq_some_iff.mp read)
    · exact .unsigned (readDigits_eq_some_iff.mp read)
  · intro written
    generalize exact : word.toInt = value at written
    cases written with
    | unsigned numeral =>
      obtain ⟨first, rest, rfl⟩ := List.exists_cons_of_ne_nil numeral.some
      rw [readWord_of_isDigit (numeral.each first List.mem_cons_self),
        readDigits_eq_some_iff.mpr numeral, Option.bind_some, fit_eq_some_iff, exact]
    | plus numeral =>
      rw [readWord, readDigits_eq_some_iff.mpr numeral, Option.bind_some, fit_eq_some_iff, exact]
    | minus numeral =>
      rw [readWord, readDigits_eq_some_iff.mpr numeral, Option.bind_some, fit_eq_some_iff, exact]

end Digits

end Numeric

namespace Text

/-- A line that writes an integer, with nothing but blanks around it. -/
def WritesWord (line : String) (word : Int64) : Prop :=
  ∃ before core after, line.toList = before ++ (core ++ after) ∧
    (∀ c ∈ before, isBlank c = true) ∧ (∀ c ∈ after, isBlank c = true) ∧
    Numeric.Writes core word.toInt

section Trimming

variable {before core after chars : List Char}

/-- Trimming removes blanks on both sides, and nothing in between. -/
theorem trim_append (front : ∀ c ∈ before, isBlank c = true)
    (middle : ∀ c ∈ core, isBlank c = false) (rear : ∀ c ∈ after, isBlank c = true) :
    trim (before ++ (core ++ after)) = core := by
  have behind : ∀ c ∈ after.reverse, isBlank c = true :=
    fun c member => rear c (List.mem_reverse.mp member)
  have kept : core.reverse.dropWhile isBlank = core.reverse := by
    refine List.dropWhile_eq_self_iff.mpr fun some => ?_
    simpa using middle _ (List.mem_reverse.mp (List.getElem_mem some))
  rw [trim, List.dropWhile_append_of_pos front, dropLastWhile]
  cases core with
  | nil =>
    rw [List.nil_append, List.dropWhile_eq_nil_iff.mpr rear]
    rfl
  | cons first core =>
    rw [List.cons_append, List.dropWhile_cons_of_neg (by simp [middle]), ← List.cons_append,
      List.reverse_append, List.dropWhile_append_of_pos behind, kept, List.reverse_reverse]

/-- What trimming removes on both sides are blanks. -/
theorem exists_trim (chars : List Char) : ∃ before after, chars = before ++ (trim chars ++ after) ∧
    (∀ c ∈ before, isBlank c = true) ∧ ∀ c ∈ after, isBlank c = true := by
  refine ⟨chars.takeWhile isBlank, ((chars.dropWhile isBlank).reverse.takeWhile isBlank).reverse,
    ?_, fun _ => List.mem_takeWhile_imp, fun c member => ?_⟩
  · rw [trim, dropLastWhile, ← List.reverse_append, List.takeWhile_append_dropWhile,
      List.reverse_reverse, List.takeWhile_append_dropWhile]
  · exact List.mem_takeWhile_imp (List.mem_reverse.mp member)

end Trimming

/-- No blank writes a part of an integer. -/
theorem isBlank_of_writes {chars : List Char} {value : Int} (written : Numeric.Writes chars value) :
    ∀ c ∈ chars, isBlank c = false := by
  have digit {c : Char} (digit : c.isDigit = true) : isBlank c = false := by
    simp only [Char.isDigit, Bool.and_eq_true, decide_eq_true_eq, ge_iff_le,
      UInt32.le_iff_toNat_le] at digit
    change 48 ≤ c.toNat ∧ c.toNat ≤ 57 at digit
    simp only [isBlank, Bool.or_eq_false_iff, Bool.and_eq_false_iff, decide_eq_false_iff_not,
      beq_eq_false_iff_ne]
    omega
  cases written with
  | unsigned numeral => exact fun c member => digit (numeral.each c member)
  | plus numeral | minus numeral =>
    exact List.forall_mem_cons.mpr ⟨by decide, fun c member => digit (numeral.each c member)⟩

/-- A word is read from a trimmed line if and only if the line writes it. -/
theorem readWord_trim_iff {line : String} {word : Int64} :
    Numeric.readWord (trim line.toList) = some word ↔ WritesWord line word := by
  rw [Numeric.readWord_eq_some_iff]
  constructor
  · intro written
    obtain ⟨before, after, whole, front, rear⟩ := exists_trim line.toList
    exact ⟨before, _, after, whole, front, rear, written⟩
  · rintro ⟨before, core, after, whole, front, rear, written⟩
    rwa [whole, trim_append front (isBlank_of_writes written) rear]

end Text

end Scriptlet
