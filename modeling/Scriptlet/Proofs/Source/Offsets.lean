import Scriptlet.Proofs.Source.Located

/-!
Byte offsets and reading agree. The place of an offset that cuts no character, which is looked up in
the lines of a text, is the place that the characters before it lead to one by one; and the lines
are the pieces of the text between its newlines, each of which starts where its first column is.
-/

namespace Scriptlet

/-- The lines of a text are its pieces when it is split at every newline. -/
theorem Text.lines_eq_splitOn (text : List Char) : lines text = text.splitOn '\n' := by
  -- A newline opens a piece, and any other character joins the first piece of what follows.
  induction text with
  | nil => rfl
  | cons c rest ih =>
    rw [lines, ih, List.splitOn_cons_eq_if_modifyHead]
    by_cases newline : c = '\n'
    · rw [if_pos newline, if_pos (beq_iff_eq.mpr newline)]
    · rw [if_neg newline, if_neg (mt beq_iff_eq.mp newline)]
      cases pieces : rest.splitOn '\n' with
      | nil => exact absurd pieces (List.splitOn_ne_nil '\n' rest)
      | cons line more => rfl

namespace Source

variable {source : Source}

/-- The place of an offset behind some text is the one that the text leads to. -/
theorem position_rawEndPos {before behind : String} (whole : source.text = before ++ behind) :
    source.position before.rawEndPos.byteIdx = Position.start.advanceBy before.toList := by
  rw [String.byteIdx_rawEndPos, ← byteLength_toList]
  exact position_byteLength (by rw [whole, String.toList_append])

/-- All offsets past the end of the text mean its end. -/
theorem position_of_ge {byte : Nat} (past : source.text.utf8ByteSize ≤ byte) :
    source.position byte = source.position source.text.utf8ByteSize := by
  rw [position_eq_placeInLines, position_eq_placeInLines, Nat.min_eq_right past, Nat.min_self]

/-- Of two offsets that cut no character, the greater one has more characters before it. -/
theorem index_position_lt {first last : String.Pos.Raw} (starts : first.IsValid source.text)
    (stops : last.IsValid source.text) (less : first < last) :
    (source.position first.byteIdx).index < (source.position last.byteIdx).index := by
  obtain ⟨before, middle, after, whole, rfl, rfl⟩ :=
    Text.exists_between starts stops (Nat.le_of_lt less)
  rw [position_rawEndPos whole, position_rawEndPos (by rw [whole, String.append_assoc]),
    Position.index_advanceBy, Position.index_advanceBy, String.toList_append, List.length_append]
  -- Between the two offsets are some bytes, and so some characters.
  have some : middle.toList ≠ [] := by
    rintro none
    rw [String.toList_eq_nil_iff] at none
    rw [none, String.append_empty] at less
    exact absurd less (Nat.lt_irrefl _)
  have positive := List.length_pos_iff.mpr some
  omega

/-- A line is there when its number is not above that of the newlines. -/
theorem isSome_line_iff (number : Nat) :
    (source.line number).isSome ↔ number ≤ source.text.toList.count '\n' := by
  rw [line_eq_getElem?_lines, Option.isSome_map, isSome_getElem?, Text.length_lines,
    Nat.lt_succ_iff]

/--
An offset and its line: the text before the offset is made of what comes before the line and of the
line's first characters, as many as the column says. The line starts behind its number of newlines,
at the start of the text or behind the last of them.
-/
def PlacedInLine (source : Source) (byte : String.Pos.Raw) : Prop :=
  ∃ earlier front behind shown : String,
    source.text = earlier ++ front ++ behind ∧ byte = (earlier ++ front).rawEndPos ∧
    earlier.toList.count '\n' = (source.position byte.byteIdx).line ∧
    (∀ c ∈ earlier.toList.getLast?, c = '\n') ∧
    source.line (source.position byte.byteIdx).line = some shown ∧
    String.ofList (shown.toList.take (source.position byte.byteIdx).column) = front

/-- Every offset that cuts no character is in the line that its place names. -/
theorem placedInLine {byte : String.Pos.Raw} (valid : byte.IsValid source.text) :
    source.PlacedInLine byte := by
  obtain ⟨before, behind, whole, rfl⟩ := String.Pos.Raw.isValid_iff_exists_append.mp valid
  obtain ⟨earlier, front, rear, later, parted⟩ := Text.exists_parted before.toList behind.toList
  -- The place has the number of the line, and as its column the length of the front part.
  have cell := parted.cell
  rw [← position_rawEndPos whole, parted.count] at cell
  have number := congrArg Cell.line cell
  have column := congrArg Cell.column cell
  simp only [Position.cell] at number column
  have same : String.ofList earlier ++ String.ofList front = before := by
    rw [← String.ofList_append, ← parted.before_eq, String.ofList_toList]
  have text : source.text.toList = earlier ++ (front ++ rear ++ later) := by
    rw [whole, String.toList_append, parted.before_eq, parted.behind_eq]
    simp only [List.append_assoc]
  have found := parted.bordered.getElem?_lines
  refine ⟨String.ofList earlier, String.ofList front, behind, String.ofList (front ++ rear), ?_, ?_,
    ?_, ?_, ?_, ?_⟩
  · rw [same, whole]
  · rw [same]
  · rw [String.toList_ofList, number]
  · rw [String.toList_ofList]
    exact parted.opened
  · rw [number, line_eq_getElem?_lines, text, found]
    rfl
  · rw [column, String.toList_ofList, List.take_left]

/--
Places by offsets are places by reading: an offset that cuts no character has the place that the
text before it leads to character by character, and every offset past the end has that of the end,
so that places go up with offsets. The lines are the pieces of the text between its newlines, and
the column of a place is the length of what its line has before the offset.
-/
theorem position_agrees (source : Source) :
    (∀ byte : String.Pos.Raw, byte.IsValid source.text →
      (∃ before behind : String, source.text = before ++ behind ∧ byte = before.rawEndPos ∧
        source.position byte.byteIdx = Position.start.advanceBy before.toList) ∧
      source.PlacedInLine byte) ∧
    (∀ byte, source.text.utf8ByteSize ≤ byte →
      source.position byte = Position.start.advanceBy source.text.toList) ∧
    (∀ first last : String.Pos.Raw, first.IsValid source.text → last.IsValid source.text →
      first < last →
      (source.position first.byteIdx).index < (source.position last.byteIdx).index) ∧
    (∀ number, ((source.line number).isSome ↔ number ≤ source.text.toList.count '\n') ∧
      source.line number = (source.text.toList.splitOn '\n')[number]?.map String.ofList) := by
  refine ⟨fun byte valid => ⟨?_, placedInLine valid⟩, fun byte past => ?_,
    fun first last starts stops less => index_position_lt starts stops less,
    fun number => ⟨isSome_line_iff number, ?_⟩⟩
  · obtain ⟨before, behind, whole, rfl⟩ := String.Pos.Raw.isValid_iff_exists_append.mp valid
    exact ⟨before, behind, whole, rfl, position_rawEndPos whole⟩
  · rw [position_of_ge past]
    exact position_rawEndPos (String.append_empty (s := source.text)).symm
  · rw [line_eq_getElem?_lines, Text.lines_eq_splitOn]

/-- Between the second letter of two bytes and the literal in the second line of a text. -/
theorem position_agrees_overLines :
    (⟨2⟩ : String.Pos.Raw).IsValid overLines.text ∧ (⟨8⟩ : String.Pos.Raw).IsValid overLines.text ∧
      overLines.text.utf8ByteSize ≤ 40 ∧ overLines.PlacedInLine ⟨8⟩ ∧
      (overLines.position 2).index < (overLines.position 8).index ∧
      overLines.position 40 = Position.start.advanceBy overLines.text.toList := by
  have first : (⟨2⟩ : String.Pos.Raw).IsValid overLines.text := by decide
  have last : (⟨8⟩ : String.Pos.Raw).IsValid overLines.text := by decide
  have past : overLines.text.utf8ByteSize ≤ 40 := by decide
  have ⟨places, beyond, increasing, _⟩ := position_agrees overLines
  exact ⟨first, last, past, (places _ last).2, increasing _ _ first last (by decide),
    beyond 40 past⟩

end Source

end Scriptlet
