import Scriptlet.Proofs.Source.LineWalk

/-!
The table of line starts. It has an entry for each line, its search ends at the line that an offset
is on, and what is cut out of the text from there is what a walk along the lines comes by.
-/

namespace Scriptlet

section Search

variable {α : Type} {test : α → Bool} {items : Array α} {count : Nat}

/--
In an array whose first items pass the test and the others do not, the place that a range is halved
down to is the last one that passes, if the range has a place that passes or none does.
-/
theorem halve_spec (parted : ∀ place (inside : place < items.size),
      test items[place] ↔ place < count)
    {base size : Nat} (inside : base + size ≤ items.size) (low : base = 0 ∨ base < count)
    (high : count ≤ base + size) :
    (halve test items base size inside = 0 ∨ halve test items base size inside < count) ∧
      count ≤ halve test items base size inside + 1 := by
  -- Both halves keep what is known of the two ends of the range.
  fun_induction halve test items base size inside with
  | case1 base size inside large half passed ih =>
    rw [parted] at passed
    exact ih (.inr passed) (by omega)
  | case2 base size inside large half failed ih =>
    rw [parted] at failed
    exact ih low (by omega)
  | case3 base size inside small => exact ⟨low, by omega⟩

/-- The partition point of such an array is the number of items that pass. -/
theorem partitionPoint_eq (parted : ∀ place (inside : place < items.size),
      test items[place] ↔ place < count)
    (bound : count ≤ items.size) : partitionPoint test items = count := by
  unfold partitionPoint
  split
  · obtain ⟨low, high⟩ := halve_spec parted (Nat.le_of_eq (Nat.zero_add _)) (.inl rfl)
      ((Nat.zero_add items.size).symm ▸ bound)
    dsimp only
    split
    · rename_i passed
      rw [parted] at passed
      omega
    · rename_i failed
      rw [parted] at failed
      omega
  · omega

end Search

namespace Text

/-- Of two texts that start a third one, the one with fewer bytes starts the other one. -/
theorem exists_append_of_byteLength_le {first second rest rest' : List Char}
    (same : first ++ rest = second ++ rest') (fewer : byteLength first ≤ byteLength second) :
    ∃ middle, second = first ++ middle := by
  rcases List.append_eq_append_iff.mp same with ⟨middle, longer, -⟩ | ⟨less, shorter, -⟩
  · exact ⟨middle, longer⟩
  · -- What is not behind the other text cannot reach beyond it.
    rw [shorter, byteLength_append] at fewer
    obtain rfl : less = [] := byteLength_eq_zero_iff.mp (by omega)
    exact ⟨[], by rw [shorter, List.append_nil, List.append_nil]⟩

/-- A text is split in one way only behind so many bytes. -/
theorem append_inj_of_byteLength {first second rest rest' : List Char}
    (same : first ++ rest = second ++ rest') (bytes : byteLength first = byteLength second) :
    first = second ∧ rest = rest' := by
  obtain ⟨middle, rfl⟩ := exists_append_of_byteLength_le same (Nat.le_of_eq bytes)
  rw [byteLength_append] at bytes
  obtain rfl : middle = [] := byteLength_eq_zero_iff.mp (by omega)
  rw [List.append_nil] at same
  exact ⟨(List.append_nil first).symm, List.append_cancel_left same⟩

/-- Two places between characters, one not behind the other, cut a text into three. -/
theorem exists_between {text : String} {first last : String.Pos.Raw} (starts : first.IsValid text)
    (stops : last.IsValid text) (order : first ≤ last) :
    ∃ before middle after : String, text = before ++ middle ++ after ∧
      first = before.rawEndPos ∧ last = (before ++ middle).rawEndPos := by
  obtain ⟨before, others, rfl, rfl⟩ := String.Pos.Raw.isValid_iff_exists_append.mp starts
  obtain ⟨front, after, same, rfl⟩ := String.Pos.Raw.isValid_iff_exists_append.mp stops
  have chars := congrArg String.toList same
  rw [String.toList_append, String.toList_append] at chars
  obtain ⟨middle, longer⟩ := exists_append_of_byteLength_le chars (by
    rw [byteLength_toList, byteLength_toList]
    exact order)
  obtain rfl : front = before ++ String.ofList middle := by
    rw [← String.toList_inj, String.toList_append, longer, String.toList_ofList]
  exact ⟨before, String.ofList middle, after, same, rfl, rfl⟩

/-- An offset can be looked up when it cuts no character. -/
theorem pos?_eq_some_iff {text : String} {offset : String.Pos.Raw} {place : text.Pos} :
    text.pos? offset = some place ↔ place.offset = offset := by
  rw [String.pos?, String.Slice.pos?, Option.map_eq_some_iff]
  constructor
  · rintro ⟨found, valid, rfl⟩
    obtain ⟨_, same⟩ := Option.dite_none_right_eq_some.mp valid
    rw [← Option.some.inj same]
    rfl
  · rintro rfl
    have valid := String.Pos.Raw.isValidForSlice_eq_true_iff.mpr place.isValid.toSlice
    exact ⟨place.toSlice, dif_pos valid, rfl⟩

/-- The slice between the places behind one part of a text and behind the next is that next one. -/
theorem copy_slice {text before part after : String} (whole : text = before ++ part ++ after)
    {start stop : text.Pos} (starts : start.offset = before.rawEndPos)
    (stops : stop.offset = (before ++ part).rawEndPos) (order : start ≤ stop) :
    (text.slice start stop order).copy = part := by
  -- Both are the same bytes.
  rw [← String.toByteArray_inj, String.toByteArray_copy_slice, starts, stops]
  simp only [whole, String.toByteArray_append, String.byteIdx_rawEndPos,
    ← String.size_toByteArray, ByteArray.size_append]
  rw [ByteArray.append_assoc, ← Nat.add_zero before.toByteArray.size, Nat.add_assoc,
    ByteArray.extract_append_size_add, Nat.zero_add, ByteArray.extract_append_eq_left rfl]

/-- What is cut out of a text is what stands between two other parts of it. -/
theorem between?_eq_some_iff {text part : String} {first last : Nat} :
    between? text first last = some part ↔
      ∃ before after, text = before ++ part ++ after ∧ before.utf8ByteSize = first ∧
        (before ++ part).utf8ByteSize = last := by
  simp only [between?, Option.bind_eq_bind, Option.bind_eq_some_iff, pos?_eq_some_iff,
    Option.map_eq_some_iff, String.slice?, Option.dite_none_right_eq_some, Option.some.injEq]
  constructor
  · rintro ⟨start, starts, stop, stops, _, ⟨order, rfl⟩, rfl⟩
    obtain ⟨before, middle, after, whole, start_eq, stop_eq⟩ :=
      exists_between start.isValid stop.isValid order
    rw [copy_slice whole start_eq stop_eq order]
    refine ⟨before, after, whole, ?_, ?_⟩
    · rw [← String.byteIdx_rawEndPos, ← start_eq, starts]
    · rw [← String.byteIdx_rawEndPos, ← stop_eq, stops]
  · rintro ⟨before, after, whole, rfl, rfl⟩
    have starts : before.rawEndPos.IsValid text :=
      String.Pos.Raw.isValid_iff_exists_append.mpr ⟨before, part ++ after, by
        rw [whole, String.append_assoc], rfl⟩
    have stops : (before ++ part).rawEndPos.IsValid text :=
      String.Pos.Raw.isValid_iff_exists_append.mpr ⟨before ++ part, after, whole, rfl⟩
    have order : text.pos _ starts ≤ text.pos _ stops := by
      show before.utf8ByteSize ≤ (before ++ part).utf8ByteSize
      rw [String.utf8ByteSize_append]
      exact Nat.le_add_right _ _
    exact ⟨text.pos _ starts, rfl, text.pos _ stops, rfl, _, ⟨order, rfl⟩,
      copy_slice whole rfl rfl order⟩

/-- Characters of a text are cut out by the bytes before them and their own. -/
theorem between?_of_append {text : String} {before part after : List Char}
    (whole : text.toList = before ++ (part ++ after)) :
    between? text (byteLength before) (byteLength before + byteLength part) =
      some (String.ofList part) := by
  refine between?_eq_some_iff.mpr ⟨String.ofList before, String.ofList after, ?_, ?_, ?_⟩
  · rw [← String.toList_inj, whole]
    simp
  · rw [← byteLength_toList, String.toList_ofList]
  · rw [← byteLength_toList, ← String.ofList_append, String.toList_ofList, byteLength_append]

/-- What is cut out of a line is found by the characters that fill the bytes. -/
theorem length_between?_of_bordered {text : String} {earlier line later : List Char} {bytes : Nat}
    (whole : text.toList = earlier ++ (line ++ later)) (inside : bytes ≤ byteLength line) :
    (between? text (byteLength earlier) (byteLength earlier + bytes)).map String.length =
      charsFilling bytes line := by
  cases filled : charsFilling bytes line with
  | some count =>
    obtain ⟨front, rear, rfl, rfl, rfl⟩ := exists_of_charsFilling filled
    rw [List.append_assoc] at whole
    rw [between?_of_append whole, Option.map_some, String.length_ofList]
  | none =>
    -- Characters that are cut out would start the line and fill the bytes.
    rw [Option.map_eq_none_iff, Option.eq_none_iff_forall_not_mem]
    intro part found
    obtain ⟨before, after, split, starts, stops⟩ := between?_eq_some_iff.mp found
    rw [String.utf8ByteSize_append, starts, ← byteLength_toList] at stops
    rw [split, String.toList_append, String.toList_append, List.append_assoc] at whole
    rw [← byteLength_toList] at starts
    obtain ⟨rfl, others⟩ := append_inj_of_byteLength whole starts
    obtain ⟨rear, rfl⟩ := exists_append_of_byteLength_le others (by omega)
    rw [← Nat.add_left_cancel stops, charsFilling_byteLength] at filled
    cases filled

end Text

namespace LineStart

/-- Every line behind a newline starts later than the characters in front of it. -/
theorem lt_of_mem_behindNewlines {byte char : Nat} {chars : List Char} {start : LineStart}
    (member : start ∈ behindNewlines byte char chars) : byte < start.byte := by
  induction chars generalizing byte char with
  | nil => cases member
  | cons c rest ih =>
    have positive := c.utf8Size_pos
    rw [behindNewlines] at member
    split at member
    · rcases List.mem_cons.mp member with rfl | later
      · exact Nat.lt_succ_self byte
      · have := ih later
        omega
    · have := ih member
      omega

/-- The lines behind newlines start one after the other. -/
theorem pairwise_behindNewlines (byte char : Nat) (chars : List Char) :
    (behindNewlines byte char chars).Pairwise (·.byte < ·.byte) := by
  induction chars generalizing byte char with
  | nil => exact .nil
  | cons c rest ih =>
    rw [behindNewlines]
    split
    · rename_i newline
      subst newline
      exact .cons (fun start member => lt_of_mem_behindNewlines member) (ih _ _)
    · exact ih _ _

/-- Behind each newline starts a line. -/
theorem length_behindNewlines (byte char : Nat) (chars : List Char) :
    (behindNewlines byte char chars).length = chars.count '\n' := by
  induction chars generalizing byte char with
  | nil => rfl
  | cons c rest ih =>
    rw [behindNewlines]
    split
    · rename_i newline
      rw [newline, List.count_cons_self, List.length_cons, ih]
    · rename_i other
      rw [List.count_cons_of_ne other, ih]

/-- No line starts behind characters without a newline. -/
theorem behindNewlines_append {line : List Char} (plain : '\n' ∉ line) (byte char : Nat)
    (rest : List Char) :
    behindNewlines byte char (line ++ rest) =
      behindNewlines (byte + byteLength line) (char + line.length) rest := by
  induction line generalizing byte char with
  | nil => rfl
  | cons c line ih =>
    rw [List.mem_cons, not_or] at plain
    rw [List.cons_append, behindNewlines, if_neg (Ne.symm plain.1), ih plain.2, byteLength_cons,
      List.length_cons]
    simp only [Nat.add_assoc, Nat.add_comm 1]

/-- Behind whole lines starts the line with their number. -/
theorem getElem?_cons_behindNewlines {earlier : List Char}
    (opened : ∀ c ∈ earlier.getLast?, c = '\n') (byte char : Nat) (rest : List Char) :
    (⟨byte, char⟩ :: behindNewlines byte char (earlier ++ rest))[earlier.count '\n']? =
      some ⟨byte + byteLength earlier, char + earlier.length⟩ := by
  -- Each of the whole lines takes one entry.
  induction Text.wholeLines_of_opened opened generalizing byte char with
  | nil => rfl
  | @cons line others plain _ ih =>
    have newline : '\n'.utf8Size = 1 := rfl
    rw [List.append_assoc, behindNewlines_append plain, List.cons_append, behindNewlines,
      if_pos rfl, newline, List.count_append, List.count_eq_zero_of_not_mem plain,
      List.count_cons_self, Nat.zero_add, List.getElem?_cons_succ,
      ih (Text.opened_cons_iff.mp opened), byteLength_append, byteLength_cons, newline,
      List.length_append, List.length_cons]
    simp only [Nat.add_assoc, Nat.add_comm 1]

variable {text : String} {earlier line later : List Char}

/-- A table has an entry for each line. -/
theorem size_table (text : String) : (table text).size = text.toList.count '\n' + 1 := by
  rw [table, List.size_toArray, List.length_cons, length_behindNewlines]

/-- The entries of a table go up. -/
theorem table_lt {first last : Nat} (order : first < last) (inside : last < (table text).size) :
    (table text)[first].byte < (table text)[last].byte := by
  have increasing : (table text).toList.Pairwise (·.byte < ·.byte) :=
    .cons (fun start member => lt_of_mem_behindNewlines member) (pairwise_behindNewlines 0 0 _)
  exact List.pairwise_iff_getElem.mp increasing first last _ _ order

/-- The entry of a line counts what stands before it. -/
theorem table_of_opened {rest : List Char} (whole : text.toList = earlier ++ rest)
    (opened : ∀ c ∈ earlier.getLast?, c = '\n') :
    (table text)[earlier.count '\n']? = some ⟨byteLength earlier, earlier.length⟩ := by
  rw [table, List.getElem?_toArray, whole, getElem?_cons_behindNewlines opened, Nat.zero_add,
    Nat.zero_add]

/-- The entry behind that of a line counts the line with its newline too, unless it is the last. -/
theorem table_of_bordered (whole : text.toList = earlier ++ (line ++ later))
    (bordered : Text.Bordered earlier line later) :
    (table text)[earlier.count '\n' + 1]? =
      if later = [] then none
      else some ⟨byteLength earlier + byteLength line + 1, earlier.length + line.length + 1⟩ := by
  have newlines : earlier.count '\n' + line.count '\n' = earlier.count '\n' := by
    rw [List.count_eq_zero_of_not_mem bordered.plain, Nat.add_zero]
  cases later with
  | nil =>
    have size : (table text).size = earlier.count '\n' + 1 := by
      rw [size_table, whole, List.append_nil, List.count_append, newlines]
    rw [if_pos rfl, Array.getElem?_eq_none (Nat.le_of_eq size)]
  | cons c later =>
    obtain rfl : c = '\n' := bordered.closed c rfl
    have split : text.toList = (earlier ++ (line ++ ['\n'])) ++ later := by simp [whole]
    have newline : '\n'.utf8Size = 1 := rfl
    have entry := table_of_opened split (by simp)
    rw [List.count_append, List.count_append, List.count_singleton_self, ← Nat.add_assoc,
      newlines] at entry
    rw [if_neg (List.cons_ne_nil _ _), entry]
    simp [newline, Nat.add_assoc]

/-- The lines that start at an offset or before it are those up to the line that it is on. -/
theorem table_le_iff (whole : text.toList = earlier ++ (line ++ later))
    (bordered : Text.Bordered earlier line later) {byte : Nat} (starts : byteLength earlier ≤ byte)
    (reaches : byte ≤ byteLength earlier + byteLength line) (place : Nat)
    (inside : place < (table text).size) :
    (table text)[place].byte ≤ byte ↔ place < earlier.count '\n' + 1 := by
  obtain ⟨here, entry⟩ := Array.getElem?_eq_some_iff.mp (table_of_opened whole bordered.opened)
  constructor
  · -- The entry behind the line is beyond the offset, and so are all that follow it.
    intro reached
    by_contra beyond
    have there : earlier.count '\n' + 1 < (table text).size := by omega
    have next := table_of_bordered whole bordered
    rw [Array.getElem?_eq_getElem there] at next
    split at next
    · cases next
    · have start : (table text)[earlier.count '\n' + 1].byte =
          byteLength earlier + byteLength line + 1 := congrArg LineStart.byte (Option.some.inj next)
      rcases Nat.lt_or_eq_of_le (Nat.not_lt.mp beyond) with later | rfl
      · have := table_lt later inside
        omega
      · omega
  · intro before
    rcases Nat.lt_or_eq_of_le (Nat.le_of_lt_succ before) with earlier | rfl
    · have := table_lt earlier here
      rw [entry] at this
      exact Nat.le_of_lt (Nat.lt_of_lt_of_le this starts)
    · rw [entry]
      exact starts

end LineStart

namespace Source

variable {source : Source} {earlier line later : List Char}

/-- The search ends at the line that an offset is on. -/
theorem lineAt_of_bordered (whole : source.text.toList = earlier ++ (line ++ later))
    (bordered : Text.Bordered earlier line later) {byte : Nat} (starts : byteLength earlier ≤ byte)
    (reaches : byte ≤ byteLength earlier + byteLength line) :
    (source.lineAt byte : Nat) = earlier.count '\n' := by
  have point : partitionPoint (·.byte ≤ byte) source.lineStarts = earlier.count '\n' + 1 := by
    refine partitionPoint_eq (fun place inside => ?_) ?_
    · rw [decide_eq_true_iff]
      exact LineStart.table_le_iff whole bordered starts reaches place inside
    · rw [lineStarts, LineStart.size_table, whole, List.count_append]
      omega
  simp only [lineAt, point, Nat.add_sub_cancel]

/-- A place is told by the entry of the line that the search ends at. -/
theorem position_of_entry {byte number : Nat} {start : LineStart}
    (found : (source.lineAt (min byte source.text.utf8ByteSize) : Nat) = number)
    (entry : source.lineStarts[number]? = some start) :
    source.position byte =
      let column := ((Text.between? source.text start.byte
        (min byte source.text.utf8ByteSize)).map String.length).getD 0
      { index := start.char + column, line := number, column } := by
  subst found
  obtain ⟨_, same⟩ := Array.getElem?_eq_some_iff.mp entry
  rw [← same]
  rfl

/-- The place of an offset is where a walk along the lines comes by it. -/
theorem position_eq_placeInLines (source : Source) (byte : Nat) :
    source.position byte =
      placeInLines 0 0 (Text.lines source.text.toList) (min byte source.text.utf8ByteSize) := by
  have inside : min byte source.text.utf8ByteSize ≤ byteLength source.text.toList := by
    rw [byteLength_toList]
    exact Nat.min_le_right _ _
  -- Both end at the line that the offset is on, and count the characters from its start.
  obtain ⟨earlier, line, later, whole, bordered, starts, reaches⟩ :=
    Text.exists_bordered_of_byte inside
  rw [position_of_entry (lineAt_of_bordered whole bordered starts reaches)
    (LineStart.table_of_opened whole bordered.opened)]
  obtain ⟨bytes, offset⟩ := Nat.exists_eq_add_of_le starts
  rw [offset] at reaches ⊢
  have fits := Nat.le_of_add_le_add_left reaches
  rw [Text.length_between?_of_bordered whole fits, whole, placeInLines_of_bordered bordered fits,
    Nat.zero_add, Nat.zero_add]

/-- The lines of a source are the pieces between its newlines. -/
theorem line_eq_getElem?_lines (source : Source) (number : Nat) :
    source.line number = (Text.lines source.text.toList)[number]?.map String.ofList := by
  by_cases inside : number ≤ source.text.toList.count '\n'
  · obtain ⟨earlier, line, later, whole, bordered, rfl⟩ := Text.exists_bordered_of_count inside
    have entry := LineStart.table_of_opened whole bordered.opened
    have next := LineStart.table_of_bordered whole bordered
    have part := Text.between?_of_append whole
    rw [Source.line, lineStarts, entry, next]
    rw [whole, bordered.getElem?_lines]
    -- The line ends before the newline behind it, or with the text.
    by_cases last : later = []
    · have size : source.text.utf8ByteSize = byteLength earlier + byteLength line := by
        rw [← byteLength_toList, whole, last, List.append_nil, byteLength_append]
      rw [if_pos last, size]
      exact part
    · rw [if_neg last]
      exact part
  · have size := LineStart.size_table source.text
    have length := Text.length_lines source.text.toList
    rw [Source.line, lineStarts, Array.getElem?_eq_none (by omega),
      List.getElem?_eq_none (by omega)]
    rfl

end Source

end Scriptlet
