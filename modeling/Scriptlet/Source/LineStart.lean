/-! The table of where the lines of a text start, its search, and parts of a text by byte. -/

namespace Scriptlet

/-- Where a line starts: the bytes and the characters of the text before it. -/
structure LineStart where
  byte : Nat
  char : Nat
deriving DecidableEq, Repr

namespace LineStart

/-- The starts of lines behind newlines in characters from the given byte and character on. -/
def behindNewlines (byte char : Nat) : List Char → List LineStart
  | [] => []
  | c :: rest =>
    let later := behindNewlines (byte + c.utf8Size) (char + 1) rest
    if c = '\n' then ⟨byte + 1, char + 1⟩ :: later else later

/-- The starts of all lines of a text: the first one starts with the text. -/
def table (text : String) : Array LineStart :=
  (⟨0, 0⟩ :: behindNewlines 0 0 text.toList).toArray

/-- The table of a text has a first line. -/
theorem size_table_pos (text : String) : 0 < (table text).size :=
  Nat.succ_pos _

end LineStart

section Search

variable {α : Type} (test : α → Bool) (items : Array α)

/--
Halves a range of places of an array down to one place. It drops the upper half when the item in the
middle fails the test, and otherwise the lower one.
-/
def halve (base size : Nat) (inside : base + size ≤ items.size) : Nat :=
  if large : 1 < size then
    let half := size / 2
    if test items[base + half] then
      halve (base + half) (size - half) (by omega)
    else
      halve base (size - half) (by omega)
  else
    base
termination_by size
decreasing_by all_goals omega

/-- A range of at least one place is halved down to a place in it. -/
theorem halve_lt (base size : Nat) (inside : base + size ≤ items.size) (some : 0 < size) :
    halve test items base size inside < base + size := by
  fun_induction halve test items base size inside <;> omega

/-- How many items pass a test, in an array where those that pass it come before all others. -/
def partitionPoint : Nat :=
  if some : 0 < items.size then
    let base := halve test items 0 items.size (Nat.le_of_eq (Nat.zero_add _))
    have bound : base < items.size := by
      have := halve_lt test items 0 items.size (Nat.le_of_eq (Nat.zero_add _)) some
      omega
    if test items[base] then base + 1 else base
  else
    0

/-- The partition point of an array is one of its places or its end. -/
theorem partitionPoint_le : partitionPoint test items ≤ items.size := by
  unfold partitionPoint
  split
  · rename_i some
    have := halve_lt test items 0 items.size (Nat.le_of_eq (Nat.zero_add _)) some
    dsimp only
    split <;> omega
  · exact Nat.zero_le _

end Search

/--
The part of a text from one byte offset up to, and without, another. There is none when one of them
is outside of the text or inside a character, or when they are in the wrong order.
-/
def Text.between? (text : String) (first last : Nat) : Option String := do
  let start ← text.pos? ⟨first⟩
  let stop ← text.pos? ⟨last⟩
  (text.slice? start stop).map String.Slice.copy

end Scriptlet
