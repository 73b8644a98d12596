import Scriptlet.Source
import Scriptlet.Text.Lines
import Mathlib.Data.List.Induction

/-!
Texts line by line. Around every place of a text is a line, and a byte offset can be followed from
one line to the next up to the one that it is on.
-/

namespace Scriptlet

/-- The bytes that characters take in UTF-8. -/
def byteLength (chars : List Char) : Nat :=
  chars.foldr (fun c bytes => c.utf8Size + bytes) 0

@[simp] theorem byteLength_nil : byteLength [] = 0 := rfl

@[simp] theorem byteLength_cons (c : Char) (chars : List Char) :
    byteLength (c :: chars) = c.utf8Size + byteLength chars := rfl

/-- Only the empty text takes no bytes. -/
theorem byteLength_eq_zero_iff {chars : List Char} : byteLength chars = 0 ↔ chars = [] := by
  cases chars with
  | nil => simp
  | cons c chars =>
    have positive := c.utf8Size_pos
    simp
    omega

/-- Two texts in turn take as many bytes as both of them. -/
@[simp] theorem byteLength_append (first second : List Char) :
    byteLength (first ++ second) = byteLength first + byteLength second := by
  induction first with
  | nil => exact (Nat.zero_add _).symm
  | cons c first ih => rw [List.cons_append, byteLength_cons, ih, byteLength_cons, Nat.add_assoc]

/-- The bytes of a text are those of its characters. -/
theorem byteLength_toList (text : String) : byteLength text.toList = text.utf8ByteSize := by
  -- The induction goes along the characters.
  have all : ∀ chars, byteLength chars = (String.ofList chars).utf8ByteSize := by
    intro chars
    induction chars with
    | nil => rfl
    | cons c chars ih =>
      rw [← List.singleton_append, byteLength_append, String.ofList_append,
        String.utf8ByteSize_append, ih, ← String.singleton_eq_ofList,
        String.utf8ByteSize_singleton]
      rfl
  rw [all, String.ofList_toList]

/-- How many characters fill exactly this many bytes; nothing when a character would be cut. -/
def charsFilling : Nat → List Char → Option Nat
  | 0, _ => some 0
  | _ + 1, [] => none
  | bytes + 1, c :: rest =>
    if c.utf8Size ≤ bytes + 1 then
      (charsFilling (bytes + 1 - c.utf8Size) rest).map (· + 1)
    else
      none

/-- Characters fill their own bytes, whatever comes behind them. -/
theorem charsFilling_byteLength (chars more : List Char) :
    charsFilling (byteLength chars) (chars ++ more) = some chars.length := by
  induction chars with
  | nil => simp [charsFilling]
  | cons c chars ih =>
    have positive := c.utf8Size_pos
    have bytes := byteLength_cons c chars
    obtain ⟨fewer, same⟩ := Nat.exists_eq_succ_of_ne_zero
      (show byteLength (c :: chars) ≠ 0 by omega)
    have fits : c.utf8Size ≤ fewer + 1 := by omega
    have left : fewer + 1 - c.utf8Size = byteLength chars := by omega
    rw [same, List.cons_append, charsFilling, if_pos fits, left, ih]
    rfl

/-- Bytes that are filled are those of the characters that fill them. -/
theorem exists_of_charsFilling {bytes count : Nat} {chars : List Char}
    (filled : charsFilling bytes chars = some count) :
    ∃ front rear, chars = front ++ rear ∧ byteLength front = bytes ∧ front.length = count := by
  fun_induction charsFilling bytes chars generalizing count with
  | case1 chars => exact ⟨[], chars, rfl, rfl, Option.some.inj filled⟩
  | case2 => cases filled
  | case3 bytes c rest fits ih =>
    obtain ⟨fewer, others, rfl⟩ := Option.map_eq_some_iff.mp filled
    obtain ⟨front, rear, rfl, size, rfl⟩ := ih others
    refine ⟨c :: front, rear, rfl, ?_, rfl⟩
    rw [byteLength_cons, size]
    omega
  | case4 => cases filled

namespace Text

/-- Every text is one line, or a line with its newline before a text with one line less. -/
@[elab_as_elim]
theorem inductionOnLines {motive : List Char → Prop} (text : List Char)
    (last : ∀ line, '\n' ∉ line → motive line)
    (more : ∀ line rest, '\n' ∉ line → motive rest → motive (line ++ '\n' :: rest)) :
    motive text := by
  induction sized : text.length using Nat.strongRecOn generalizing text with
  | ind size ih =>
    by_cases newline : '\n' ∈ text
    · obtain ⟨line, rest, rfl, plain⟩ := List.eq_append_cons_of_mem newline
      rw [List.length_append, List.length_cons] at sized
      exact more line rest plain (ih rest.length (by omega) rest rfl)
    · exact last text newline

/-- A text ends with a newline, or is empty, with and without a further line in front of it. -/
theorem opened_cons_iff {line earlier : List Char} :
    (∀ c ∈ (line ++ '\n' :: earlier).getLast?, c = '\n') ↔ ∀ c ∈ earlier.getLast?, c = '\n' := by
  cases earlier with
  | nil => simp
  | cons c earlier =>
    rw [List.getLast?_append, List.getLast?_cons_cons, List.getLast?_cons, Option.some_or]

/-- Texts made of whole lines, each with the newline behind it. -/
inductive WholeLines : List Char → Prop where
  | nil : WholeLines []
  | cons {line rest : List Char} (plain : '\n' ∉ line) (others : WholeLines rest) :
      WholeLines (line ++ '\n' :: rest)

/-- A text that is empty or ends with a newline is made of whole lines. -/
theorem wholeLines_of_opened {text : List Char} (opened : ∀ c ∈ text.getLast?, c = '\n') :
    WholeLines text := by
  induction text using inductionOnLines with
  | last line plain =>
    -- A line without its newline would have to be empty.
    cases last : line.getLast? with
    | none => exact List.getLast?_eq_none_iff.mp last ▸ .nil
    | some c =>
      obtain rfl := opened c last
      exact absurd (List.mem_of_getLast? last) plain
  | more line rest plain ih => exact .cons plain (ih (opened_cons_iff.mp opened))

/-- A line of a text between what stands before it and behind it. -/
structure Bordered (earlier line later : List Char) : Prop where
  plain : '\n' ∉ line
  opened : ∀ c ∈ earlier.getLast?, c = '\n'
  closed : ∀ c ∈ later.head?, c = '\n'

/-- What stands before a place ends with a part of a line. -/
theorem exists_front (before : List Char) :
    ∃ earlier front, before = earlier ++ front ∧ '\n' ∉ front ∧
      ∀ c ∈ earlier.getLast?, c = '\n' := by
  -- The induction goes along the text from its end.
  induction before using List.reverseRecOn with
  | nil => exact ⟨[], [], rfl, by simp, by simp⟩
  | append_singleton before c ih =>
    by_cases newline : c = '\n'
    · exact ⟨before ++ [c], [], by simp, by simp, by simp [newline]⟩
    · obtain ⟨earlier, front, rfl, plain, opened⟩ := ih
      refine ⟨earlier, front ++ [c], List.append_assoc .., ?_, opened⟩
      simp [plain, Ne.symm newline]

/-- What stands behind a place starts with a part of a line. -/
theorem exists_rear (behind : List Char) :
    ∃ rear later, behind = rear ++ later ∧ '\n' ∉ rear ∧ ∀ c ∈ later.head?, c = '\n' := by
  -- The induction goes along the text, up to its first newline.
  induction behind with
  | nil => exact ⟨[], [], rfl, by simp, by simp⟩
  | cons c behind ih =>
    by_cases newline : c = '\n'
    · exact ⟨[], c :: behind, rfl, by simp, by simp [newline]⟩
    · obtain ⟨rear, later, rfl, plain, closed⟩ := ih
      refine ⟨c :: rear, later, rfl, ?_, closed⟩
      simp [plain, Ne.symm newline]

/-- Every byte of a text is on one of its lines, or on the newline behind it. -/
theorem exists_bordered_of_byte {text : List Char} {byte : Nat} (inside : byte ≤ byteLength text) :
    ∃ earlier line later, text = earlier ++ (line ++ later) ∧ Bordered earlier line later ∧
      byteLength earlier ≤ byte ∧ byte ≤ byteLength earlier + byteLength line := by
  induction text using inductionOnLines generalizing byte with
  | last line plain =>
    exact ⟨[], line, [], (List.append_nil _).symm, ⟨plain, nofun, nofun⟩, Nat.zero_le _,
      (Nat.zero_add _).symm ▸ inside⟩
  | more line rest plain ih =>
    by_cases here : byte ≤ byteLength line
    · exact ⟨[], line, '\n' :: rest, rfl, ⟨plain, nofun, fun c head => (Option.some.inj head).symm⟩,
        Nat.zero_le _, (Nat.zero_add _).symm ▸ here⟩
    · have newline : '\n'.utf8Size = 1 := rfl
      rw [byteLength_append, byteLength_cons, newline] at inside
      obtain ⟨earlier, found, later, rfl, bordered, starts, reaches⟩ :=
        @ih (byte - (byteLength line + 1)) (by omega)
      refine ⟨line ++ '\n' :: earlier, found, later, by simp,
        { bordered with opened := opened_cons_iff.mpr bordered.opened }, ?_, ?_⟩ <;>
      · rw [byteLength_append, byteLength_cons, newline]
        omega

/-- The lines of a text are numbered by the newlines before them. -/
theorem exists_bordered_of_count {text : List Char} {number : Nat}
    (inside : number ≤ text.count '\n') :
    ∃ earlier line later, text = earlier ++ (line ++ later) ∧ Bordered earlier line later ∧
      earlier.count '\n' = number := by
  induction text using inductionOnLines generalizing number with
  | last line plain =>
    rw [List.count_eq_zero_of_not_mem plain, Nat.le_zero] at inside
    exact ⟨[], line, [], (List.append_nil _).symm, ⟨plain, nofun, nofun⟩, inside.symm⟩
  | more line rest plain ih =>
    rw [List.count_append, List.count_eq_zero_of_not_mem plain, List.count_cons_self] at inside
    cases number with
    | zero =>
      exact ⟨[], line, '\n' :: rest, rfl,
        ⟨plain, nofun, fun c head => (Option.some.inj head).symm⟩, rfl⟩
    | succ number =>
      obtain ⟨earlier, found, later, rfl, bordered, rfl⟩ := @ih number (by omega)
      refine ⟨line ++ '\n' :: earlier, found, later, by simp,
        { bordered with opened := opened_cons_iff.mpr bordered.opened }, ?_⟩
      simp [List.count_eq_zero_of_not_mem plain]

/-- Characters without a newline stand in front of the first line of a text. -/
theorem lines_append {front rest line : List Char} {more : List (List Char)}
    (plain : '\n' ∉ front) (split : lines rest = line :: more) :
    lines (front ++ rest) = (front ++ line) :: more := by
  induction front with
  | nil => exact split
  | cons c front ih =>
    rw [List.mem_cons, not_or] at plain
    rw [List.cons_append, lines, if_neg (Ne.symm plain.1), ih plain.2]
    rfl

/-- A line with its newline is the first one of a text, and the others follow. -/
theorem lines_append_newline {line : List Char} (plain : '\n' ∉ line) (rest : List Char) :
    lines (line ++ '\n' :: rest) = line :: lines rest := by
  have split : lines ('\n' :: rest) = [] :: lines rest := by
    rw [lines, if_pos rfl]
  rw [lines_append plain split, List.append_nil]

/-- The line that starts a text is its first one. -/
theorem lines_of_closed {line later : List Char} (plain : '\n' ∉ line)
    (closed : ∀ c ∈ later.head?, c = '\n') : ∃ more, lines (line ++ later) = line :: more := by
  -- Behind the line is nothing, or a newline that opens the next one.
  cases later with
  | nil => exact ⟨[], by rw [lines_append plain rfl, List.append_nil]⟩
  | cons c later =>
    obtain rfl : c = '\n' := closed c rfl
    exact ⟨lines later, lines_append_newline plain later⟩

/-- The number of a line is how many newlines stand before it. -/
theorem Bordered.getElem?_lines {earlier line later : List Char}
    (bordered : Bordered earlier line later) :
    (lines (earlier ++ (line ++ later)))[earlier.count '\n']? = some line := by
  -- The induction goes along the lines before this one.
  obtain ⟨inner, opened, closed⟩ := bordered
  induction wholeLines_of_opened opened with
  | nil =>
    obtain ⟨more, split⟩ := lines_of_closed inner closed
    rw [List.nil_append, split]
    rfl
  | cons plain _ ih =>
    rw [List.append_assoc, List.cons_append, lines_append_newline plain, List.count_append,
      List.count_eq_zero_of_not_mem plain, List.count_cons_self, Nat.zero_add,
      List.getElem?_cons_succ]
    exact ih (opened_cons_iff.mp opened)

end Text

/--
The place of a byte offset, found line by line: `index` and `line` belong to the start of the
first of the lines given. An offset inside a character counts as the start of its line.
-/
def placeInLines (index line : Nat) : List (List Char) → Nat → Position
  | [], _ => { index, line, column := 0 }
  | chars :: rest, byte =>
    if byte ≤ byteLength chars ∨ rest = [] then
      let column := (charsFilling byte chars).getD 0
      { index := index + column, line, column }
    else
      placeInLines (index + chars.length + 1) (line + 1) rest (byte - (byteLength chars + 1))

/-- An offset is followed to the line that it is on, and is placed by the characters before it. -/
theorem placeInLines_of_bordered {earlier line later : List Char} {bytes : Nat}
    (bordered : Text.Bordered earlier line later) (inside : bytes ≤ byteLength line)
    (index number : Nat) :
    placeInLines index number (Text.lines (earlier ++ (line ++ later)))
        (byteLength earlier + bytes) =
      { index := index + earlier.length + (charsFilling bytes line).getD 0
        line := number + earlier.count '\n'
        column := (charsFilling bytes line).getD 0 } := by
  -- The walk takes the lines before the offset one by one.
  obtain ⟨inner, opened, closed⟩ := bordered
  induction Text.wholeLines_of_opened opened generalizing index number with
  | nil =>
    obtain ⟨more, split⟩ := Text.lines_of_closed inner closed
    rw [List.nil_append, split, byteLength_nil, Nat.zero_add, placeInLines, if_pos (.inl inside)]
    rfl
  | @cons first earlier plain _ ih =>
    have newline : '\n'.utf8Size = 1 := rfl
    have others := Text.lines_ne_nil (earlier ++ (line ++ later))
    rw [List.append_assoc, List.cons_append, Text.lines_append_newline plain, byteLength_append,
      byteLength_cons, newline, placeInLines, if_neg (by simp [others]; omega),
      show byteLength first + (1 + byteLength earlier) + bytes - (byteLength first + 1) =
        byteLength earlier + bytes by omega,
      ih _ _ (Text.opened_cons_iff.mp opened)]
    simp only [Position.mk.injEq, List.length_append, List.length_cons, List.count_append,
      List.count_eq_zero_of_not_mem plain, List.count_cons_self, and_true]
    omega

end Scriptlet
