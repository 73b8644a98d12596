import Scriptlet.Proofs.Token.Place
import Scriptlet.Source.Excerpt
import Mathlib.Data.List.Forall2

/-!
Excerpts point at what they are about: the line that a report names and shows is the one around the
start of its range, and the carets stand under the characters of the range that the line shows.
-/

namespace Scriptlet

namespace Text

/-- The line around a place of a text, with what stands before and behind it. -/
structure LineAround (text : List Char) (place : Nat) (earlier line later : List Char) : Prop where
  whole : text = earlier ++ line ++ later
  plain : '\n' ∉ line
  opened : ∀ c ∈ earlier.getLast?, c = '\n'
  closed : ∀ c ∈ later.head?, c = '\n'
  starts : earlier.length ≤ place
  reaches : place ≤ earlier.length + line.length

/-- A line as reports show it: one carriage return at its end is left out, and tabs are spaces. -/
def ShowsLine (line shown : List Char) : Prop :=
  ∃ kept, (line = kept ++ ['\r'] ∨ line = kept ∧ ∀ c ∈ kept.getLast?, c ≠ '\r') ∧
    List.Forall₂ (fun c sign => sign = if c = '\t' then ' ' else c) kept shown

/--
A row of carets below a line of so many columns: they stand under exactly the columns that are
marked, or, when none is, one stands where the marks would begin or at the end of the line.
-/
structure CaretRow (marked : Nat → Prop) (begins width : Nat) (row : List Char) : Prop where
  blank : ∀ c ∈ row, c = ' ' ∨ c = '^'
  ended : row.getLast? = some '^'
  exact : (∃ column, marked column) → ∀ column, row[column]? = some '^' ↔ marked column
  single : (¬ ∃ column, marked column) → row = List.replicate (min begins width) ' ' ++ ['^']

/-- A text cut at a place, and the line around the place cut there as well. -/
structure Parted (before behind earlier front rear later : List Char) : Prop where
  before_eq : before = earlier ++ front
  behind_eq : behind = rear ++ later
  front_plain : '\n' ∉ front
  rear_plain : '\n' ∉ rear
  opened : ∀ c ∈ earlier.getLast?, c = '\n'
  closed : ∀ c ∈ later.head?, c = '\n'

/-- Around every place of a text is a line. -/
theorem exists_parted (before behind : List Char) :
    ∃ earlier front rear later, Parted before behind earlier front rear later := by
  obtain ⟨earlier, front, split, plain, opened⟩ := exists_front before
  obtain ⟨rear, later, split', plain', closed⟩ := exists_rear behind
  exact ⟨earlier, front, rear, later, split, split', plain, plain', opened, closed⟩

/-- What a report shows of a line. -/
theorem showsLine_shownLine (line : List Char) : ShowsLine line (shownLine line) := by
  -- One carriage return may be dropped; every other character takes one column.
  refine ⟨dropCarriageReturn line, ?_, ?_⟩
  · unfold dropCarriageReturn
    split
    · rename_i last
      obtain ⟨kept, rfl⟩ := List.getLast?_eq_some_iff.mp last
      exact .inl (by simp)
    · rename_i other
      exact .inr ⟨rfl, fun c last same => other (same ▸ last)⟩
  · rw [shownLine, List.forall₂_map_right_iff, List.forall₂_same]
    exact fun _ _ => rfl

/-- No more columns are shown of a line than it has. -/
theorem ShowsLine.length_le {line shown : List Char} (shows_ : ShowsLine line shown) :
    shown.length ≤ line.length := by
  obtain ⟨kept, split, signs⟩ := shows_
  rw [← signs.length_eq]
  rcases split with rfl | ⟨rfl, -⟩
  · simp
  · exact Nat.le_refl _

/-- Carets from one column up to another, or at least one of them, are a row of carets. -/
theorem caretRow_between (ends : Nat) {marked : Nat → Prop} {begins width : Nat}
    (bounds : ∀ column, marked column ↔ begins ≤ column ∧ column < min ends width) :
    CaretRow marked begins width
      (List.replicate (min begins width) ' ' ++
        List.replicate (max (min ends width - min begins width) 1) '^') where
  blank c member := by
    rw [List.mem_append, List.mem_replicate, List.mem_replicate] at member
    exact member.imp And.right And.right
  ended := by
    rw [List.getLast?_append, List.getLast?_replicate, if_neg (by omega)]
    rfl
  -- The spaces end where the carets begin, and these are cut off at the end of the line.
  exact := by
    rintro ⟨some, mark⟩ column
    rw [bounds] at mark
    rw [bounds, List.getElem?_append, List.length_replicate, List.getElem?_replicate,
      List.getElem?_replicate]
    by_cases before : column < min begins width
    · simp [before]
      omega
    · simp only [before, ↓reduceIte, Option.ite_none_right_eq_some, and_true]
      omega
  single none := by
    -- Otherwise the first column of the range would be marked.
    have short : min ends width - min begins width = 0 := by
      refine Nat.eq_zero_of_not_pos fun long => none ⟨begins, ?_⟩
      rw [bounds]
      omega
    rw [short]
    rfl

end Text

namespace Position

/-- The place behind some whole lines and then a part of a line. -/
theorem cell_advanceBy {earlier front : List Char} (plain : '\n' ∉ front)
    (opened : ∀ c ∈ earlier.getLast?, c = '\n') :
    (start.advanceBy (earlier ++ front)).cell = ⟨earlier.count '\n', front.length⟩ := by
  rw [advanceBy_append, advanceBy_line plain, cell, line_advanceBy, column_opened opened]
  simp [start]

end Position

section Parted

open Text

variable {before behind earlier front rear later : List Char}

/-- The two parts of the line are a line of the text. -/
theorem Text.Parted.lineAround (parted : Parted before behind earlier front rear later) :
    LineAround (before ++ behind) before.length earlier (front ++ rear) later where
  whole := by simp only [parted.before_eq, parted.behind_eq, List.append_assoc]
  plain := by simp [parted.front_plain, parted.rear_plain]
  opened := parted.opened
  closed := parted.closed
  starts := by simp [parted.before_eq]
  reaches := by simp [parted.before_eq, ← Nat.add_assoc]

/-- The line stands between the two parts of the text around it. -/
theorem Text.Parted.bordered (parted : Parted before behind earlier front rear later) :
    Bordered earlier (front ++ rear) later :=
  ⟨parted.lineAround.plain, parted.opened, parted.closed⟩

/-- The newlines before the line are those before the place. -/
theorem Text.Parted.count (parted : Parted before behind earlier front rear later) :
    before.count '\n' = earlier.count '\n' := by
  rw [parted.before_eq, List.count_append, List.count_eq_zero.mpr parted.front_plain,
    Nat.add_zero]

/-- The place is behind as many newlines and, in its line, behind the front part of that. -/
theorem Text.Parted.cell (parted : Parted before behind earlier front rear later) :
    (Position.start.advanceBy before).cell = ⟨before.count '\n', front.length⟩ := by
  rw [parted.count, parted.before_eq, Position.cell_advanceBy parted.front_plain parted.opened]

/-- If a newline stands before another place behind, the rear part of the line ends before it. -/
theorem Text.Parted.rear_lt (parted : Parted before behind earlier front rear later)
    {middle after : List Char} (split : behind = middle ++ after) (newline : '\n' ∈ middle) :
    rear.length < middle.length := by
  have same : middle ++ after = rear ++ later := split.symm.trans parted.behind_eq
  have plain := parted.rear_plain
  -- Either the middle ends within the rear part, which has no newline, or behind it.
  rcases List.append_eq_append_iff.mp same with ⟨more, longer, -⟩ | ⟨less, shorter, -⟩
  · rw [longer, List.mem_append, not_or] at plain
    exact absurd newline plain.1
  · rw [shorter, List.length_append, Nat.lt_add_right_iff_pos, List.length_pos_iff]
    rintro rfl
    rw [List.append_nil] at shorter
    exact plain (shorter ▸ newline)

/-- The column up to which a line of so many columns is marked when a range ends at a place. -/
def Cell.ends (stop : Cell) (line width : Nat) : Nat :=
  if stop.line = line then stop.column else width

/-- The columns up to there are those of the characters before the place. -/
theorem Text.Parted.lt_ends_iff (parted : Parted before behind earlier front rear later)
    {middle after : List Char} (split : behind = middle ++ after) {width : Nat} (column : Nat)
    (fits : width ≤ (front ++ rear).length) (inside : column < width) :
    column < (Position.start.advanceBy (before ++ middle)).cell.ends (before.count '\n') width ↔
      earlier.length + column < before.length + middle.length := by
  have size : before.length = earlier.length + front.length := by
    rw [parted.before_eq, List.length_append]
  unfold Cell.ends
  by_cases newline : '\n' ∈ middle
  · -- The place is on a later line, so the whole line is marked.
    have short := parted.rear_lt split newline
    have some := List.count_pos_iff.mpr newline
    have later : (Position.start.advanceBy (before ++ middle)).cell.line ≠ before.count '\n' := by
      rw [Position.cell, Position.line_advanceBy, List.count_append]
      show 0 + _ ≠ _
      omega
    rw [List.length_append] at fits
    rw [if_neg later]
    omega
  · -- The place is on the same line, behind the whole range.
    have plain : '\n' ∉ front ++ middle := by simp [parted.front_plain, newline]
    rw [parted.count, parted.before_eq, List.append_assoc,
      Position.cell_advanceBy plain parted.opened, if_pos rfl, List.length_append,
      List.length_append]
    show column < front.length + middle.length ↔ _
    omega

/-- The excerpt shows the line and marks it between two columns. -/
theorem Text.Parted.excerpt (parted : Parted before behind earlier front rear later)
    {text : String} (whole : text.toList = before ++ behind) (stop : Cell) :
    Scriptlet.excerpt text ⟨before.count '\n', front.length⟩ stop =
      let shown := shownLine (front ++ rear)
      let ends := stop.ends (before.count '\n') shown.length
      String.ofList (shown ++ '\n' ::
        (List.replicate (min front.length shown.length) ' ' ++
          List.replicate
            (max (min ends shown.length - min front.length shown.length) 1) '^')) := by
  have line := parted.bordered.getElem?_lines
  rw [← parted.count, ← List.append_assoc, ← parted.lineAround.whole, ← whole] at line
  have ends (same : Prop) [Decidable same] (column width : Nat) :
      (if same then min column width else width) = min (if same then column else width) width := by
    split
    · rfl
    · exact (Nat.min_self width).symm
  -- The line that is looked up by its number is the line around the place.
  simp only [Scriptlet.excerpt, Cell.ends, line, Option.getD_some, ends]

end Parted

/--
What a report says of a range between two places of a text: it names the line and the column of the
first one, shows the line around that, and marks what of the line lies between the two places.
-/
def Source.PointsOut (source : Source) (first last : String.Pos.Raw) (report : String) : Prop :=
  ∃ before middle after : String, source.text = before ++ middle ++ after ∧
    first = before.rawEndPos ∧ last = (before ++ middle).rawEndPos ∧
    ∃ earlier line later shown row : List Char,
      Text.LineAround source.text.toList before.length earlier line later ∧
      Text.ShowsLine line shown ∧
      Text.CaretRow
        (fun column => column < shown.length ∧ before.length ≤ earlier.length + column ∧
          earlier.length + column < (before ++ middle).length)
        (before.length - earlier.length) shown.length row ∧
      let number := before.toList.count '\n' + 1
      let column := before.length - earlier.length + 1
      report = s!"File {source.name}, line {number}, col {column}\n\n" ++
        String.ofList (shown ++ '\n' :: row)

/--
A report points at what it is about, whenever its range lies between two places of the text that cut
no character and of which the second is not before the first.
-/
theorem Span.located_pointsOut {source : Source} {first last : String.Pos.Raw}
    (starts : first.IsValid source.text) (stops : last.IsValid source.text)
    (order : first ≤ last) :
    source.PointsOut first last
      (⟨source, source.position first.byteIdx, source.position last.byteIdx⟩ : Span).located := by
  obtain ⟨before, middle, after, text, rfl, rfl⟩ := Text.exists_between starts stops order
  obtain ⟨earlier, front, rear, later, parted⟩ :=
    Text.exists_parted before.toList (middle.toList ++ after.toList)
  have whole : source.text.toList = before.toList ++ (middle.toList ++ after.toList) := by
    simp only [text, String.toList_append, List.append_assoc]
  have size : before.length = earlier.length + front.length := by
    rw [← String.length_toList, parted.before_eq, List.length_append]
  have column : before.length - earlier.length = front.length := by omega
  -- Both places are those that the characters before them lead to.
  have start : source.position before.rawEndPos.byteIdx =
      Position.start.advanceBy before.toList := by
    show source.position before.utf8ByteSize = _
    rw [← byteLength_toList]
    exact Source.position_byteLength whole
  have stop : source.position (before ++ middle).rawEndPos.byteIdx =
      Position.start.advanceBy (before.toList ++ middle.toList) := by
    show source.position (before ++ middle).utf8ByteSize = _
    rw [← byteLength_toList, String.toList_append]
    exact Source.position_byteLength (by rw [whole, List.append_assoc])
  have cell := parted.cell
  rw [← start] at cell
  have fits := Text.ShowsLine.length_le (Text.showsLine_shownLine (front ++ rear))
  refine ⟨before, middle, after, text, rfl, rfl, earlier, front ++ rear, later,
    shownLine (front ++ rear), _, ?_, Text.showsLine_shownLine _, Text.caretRow_between
      ((source.position (before ++ middle).rawEndPos.byteIdx).cell.ends
        (before.toList.count '\n') (shownLine (front ++ rear)).length) fun place => ?_, ?_⟩
  · rw [whole, ← String.length_toList]
    exact parted.lineAround
  · have ends := parted.lt_ends_iff rfl place fits
    rw [← stop, String.length_toList, String.length_toList, ← String.length_append] at ends
    rw [Nat.lt_min, column]
    constructor
    · rintro ⟨inside, first, last⟩
      exact ⟨by omega, (ends inside).mpr last, inside⟩
    · rintro ⟨first, last, inside⟩
      exact ⟨inside, by omega, (ends inside).mp last⟩
  · have line := congrArg Cell.line cell
    have offset := congrArg Cell.column cell
    simp only [Position.cell] at line offset
    rw [Span.located, cell, parted.excerpt whole, column, line, offset]

/-- A text with a tab, a letter of two bytes, a carriage return and a literal over two lines. -/
def overLines : Source := { name := "lines", text := "é\n\tA = \"é\r\nB\" + 1" }

/-- The literal starts in the second line, and all that is shown of it there is marked. -/
theorem Span.located_pointsOut_lines :
    (⟨8⟩ : String.Pos.Raw).IsValid overLines.text ∧ (⟨15⟩ : String.Pos.Raw).IsValid overLines.text ∧
      overLines.PointsOut ⟨8⟩ ⟨15⟩ "File lines, line 2, col 6\n\n A = \"é\n     ^^" := by
  have starts : (⟨8⟩ : String.Pos.Raw).IsValid overLines.text := by decide
  have stops : (⟨15⟩ : String.Pos.Raw).IsValid overLines.text := by decide
  have report : (⟨overLines, overLines.position 8, overLines.position 15⟩ : Span).located =
      "File lines, line 2, col 6\n\n A = \"é\n     ^^" := by decide +kernel
  refine ⟨starts, stops, ?_⟩
  rw [← report]
  exact located_pointsOut starts stops (by decide)

end Scriptlet
