/-! Texts repeated a number of times, as far as there is room for them. -/

namespace Scriptlet

/-- The most bytes that a text can have. -/
def Text.capacity : Nat := 0x7fffffffffffffff

/--
For how many bytes there is room. No bytes need none, and there is never room for more bytes than a
text can have; which of the sizes between are granted is up to the machine.
-/
structure Memory where
  grants : Nat → Bool
  grants_zero : grants 0 = true
  within {size : Nat} (granted : grants size = true) : size ≤ Text.capacity

/-- A machine with room for texts of up to so many bytes. -/
def Memory.upTo (limit : Nat) (within : limit ≤ Text.capacity) : Memory where
  grants size := decide (size ≤ limit)
  grants_zero := by simp
  within granted := Nat.le_trans (of_decide_eq_true granted) within

/-- A machine with room for texts of up to a gibibyte. -/
def Memory.gibibyte : Memory := .upTo 0x40000000 (by decide)

namespace Text

/-- A text so many times over; nothing when there is no room for it. -/
def repeated? (memory : Memory) (text : String) (count : Nat) : Option String :=
  if text.utf8ByteSize = 0 then some ""
  else if memory.grants (text.utf8ByteSize * count) then
    some (String.join (List.replicate count text))
  else none

variable {memory : Memory} {text : String} {count : Nat}

/-- A text no times over is empty, however little room there is. -/
theorem repeated?_zero (memory : Memory) (text : String) : repeated? memory text 0 = some "" := by
  unfold repeated?
  split
  · rfl
  · rw [Nat.mul_zero, if_pos memory.grants_zero]
    rfl

/-- Nothing is repeated into more bytes than a text can have. -/
theorem repeated?_eq_none (beyond : capacity < text.utf8ByteSize * count) :
    repeated? memory text count = none := by
  -- The text has bytes, since without them there would be none to be repeated.
  have filled : text.utf8ByteSize ≠ 0 := fun empty => by simp [empty] at beyond
  have refused : ¬memory.grants (text.utf8ByteSize * count) = true := fun granted =>
    Nat.not_le_of_lt beyond (memory.within granted)
  rw [repeated?, if_neg filled, if_neg refused]

/-- A text that was repeated is that many copies of it in a row, however much room there was. -/
theorem eq_join_of_repeated? {result : String} (done : repeated? memory text count = some result) :
    result = String.join (List.replicate count text) := by
  unfold repeated? at done
  split at done
  · next empty =>
    -- Copies of the empty text are empty.
    obtain rfl : text = "" := String.utf8ByteSize_eq_zero_iff.mp empty
    rw [← Option.some.inj done]
    clear done
    induction count with
    | zero => rfl
    | succ count ih => rw [List.replicate_succ, String.join_cons, ← ih]; rfl
  · split at done
    · exact (Option.some.inj done).symm
    · cases done

end Text

end Scriptlet
