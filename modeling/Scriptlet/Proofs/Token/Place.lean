import Scriptlet.Proofs.Source.LineTable

/-!
Byte offsets and places. The place of a byte offset is looked up in the table of line starts, and it
is the place that reading the characters before the offset one by one leads to.
-/

namespace Scriptlet

/-- Characters without a newline stay on their line. -/
theorem Position.advanceBy_line {front : List Char} (plain : '\n' ∉ front) (place : Position) :
    place.advanceBy front =
      ⟨place.index + front.length, place.line, place.column + front.length⟩ := by
  induction front generalizing place with
  | nil => rfl
  | cons c front ih =>
    rw [List.mem_cons, not_or] at plain
    rw [Position.advanceBy_cons, ih plain.2, Position.advance, if_neg (Ne.symm plain.1)]
    simp only [List.length_cons, Nat.add_assoc, Nat.add_comm 1]

/-- Every newline leads to the next line. -/
theorem Position.line_advanceBy (place : Position) (chars : List Char) :
    (place.advanceBy chars).line = place.line + chars.count '\n' := by
  -- The induction goes along the characters that are passed.
  induction chars generalizing place with
  | nil => rfl
  | cons c chars ih =>
    rw [advanceBy_cons, ih, advance]
    split
    · rename_i newline
      rw [newline, List.count_cons_self]
      show place.line + 1 + _ = _
      omega
    · rename_i other
      rw [List.count_cons_of_ne other]

/-- Behind a newline, and at the start of a text, is the first column. -/
theorem Position.column_opened {earlier : List Char} (opened : ∀ c ∈ earlier.getLast?, c = '\n') :
    (Position.start.advanceBy earlier).column = 0 := by
  cases earlier using List.reverseRecOn with
  | nil => rfl
  | append_singleton earlier c =>
    obtain rfl : c = '\n' := opened c (by simp)
    rw [advanceBy_append, advanceBy_cons, advance, if_pos rfl]
    rfl

/-- The place of the byte offset behind some characters is the place that they lead to. -/
theorem Source.position_byteLength {source : Source} {before behind : List Char}
    (text : source.text.toList = before ++ behind) :
    source.position (byteLength before) = Position.start.advanceBy before := by
  have inside : byteLength before ≤ source.text.utf8ByteSize := by
    rw [← byteLength_toList, text, byteLength_append]
    exact Nat.le_add_right _ _
  -- The offset is on a line that the characters before it end with a part of.
  obtain ⟨earlier, front, rfl, plain, opened⟩ := Text.exists_front before
  obtain ⟨rear, later, rfl, plain', closed⟩ := Text.exists_rear behind
  have bordered : Text.Bordered earlier (front ++ rear) later :=
    ⟨by simp [plain, plain'], opened, closed⟩
  have fits : byteLength front ≤ byteLength (front ++ rear) := by
    rw [byteLength_append]
    exact Nat.le_add_right _ _
  rw [position_eq_placeInLines, Nat.min_eq_left inside, text, byteLength_append,
    show earlier ++ front ++ (rear ++ later) = earlier ++ (front ++ rear ++ later) by
      simp only [List.append_assoc],
    placeInLines_of_bordered bordered fits, charsFilling_byteLength, Position.advanceBy_append,
    Position.advanceBy_line plain, Position.index_advanceBy, Position.line_advanceBy,
    Position.column_opened opened]
  simp [Position.start]

end Scriptlet
