/-! Texts as sequences of lines that single newlines separate. -/

namespace Scriptlet.Text

/-- The pieces between the newlines of a text; there is one more of them than of newlines. -/
def lines : List Char → List (List Char)
  | [] => [[]]
  | c :: rest =>
    if c = '\n' then
      [] :: lines rest
    else
      match lines rest with
      | [] => [[c]]
      | line :: more => (c :: line) :: more

/-- A line without the one carriage return that may stand at its end. -/
def dropCarriageReturn (line : List Char) : List Char :=
  if line.getLast? = some '\r' then line.dropLast else line

/-- Every text has a first line. -/
theorem lines_ne_nil (text : List Char) : lines text ≠ [] := by
  -- Each branch of the definition conses a line.
  cases text with
  | nil => simp [lines]
  | cons c rest =>
    simp only [lines]
    split
    · simp
    · split <;> simp

/-- A text has one more line than it has newlines. -/
theorem length_lines (text : List Char) : (lines text).length = text.count '\n' + 1 := by
  -- A newline opens a line, and any other character joins the line that follows it.
  induction text with
  | nil => simp [lines]
  | cons c rest ih =>
    simp only [lines]
    split
    · rename_i newline
      simp [newline, ih]
    · rename_i other
      split
      · rename_i none
        exact absurd none (lines_ne_nil rest)
      · rename_i line more found
        rw [found] at ih
        simpa [List.count_cons, other] using ih

end Scriptlet.Text
