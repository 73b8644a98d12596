import Scriptlet.Source
import Scriptlet.Text.Lines

/-! The line that a report shows, with carets under the characters it is about. -/

namespace Scriptlet

/-- A line and a column, both counted from zero. -/
structure Cell where
  line : Nat
  column : Nat
deriving DecidableEq, Repr

/-- The line and the column of a place. -/
def Position.cell (place : Position) : Cell :=
  { line := place.line, column := place.column }

/-- A line as reports show it: no closing carriage return, and a space for each tab. -/
def shownLine (line : List Char) : List Char :=
  (Text.dropCarriageReturn line).map fun c => if c = '\t' then ' ' else c

/--
The line where a range starts, and below it carets from the first to the last column of the range.
A range that ends on another line is marked to the end of this one, and one caret at least is drawn.
-/
def excerpt (text : String) (start stop : Cell) : String :=
  let shown := shownLine ((Text.lines text.toList)[start.line]?.getD [])
  let first := min start.column shown.length
  let last := if stop.line = start.line then min stop.column shown.length else shown.length
  let carets := max (last - first) 1
  String.ofList (shown ++ '\n' :: (List.replicate first ' ' ++ List.replicate carets '^'))

/-- The name, line and column of a range, counted from one, and the excerpt that shows it. -/
def Span.located (span : Span) : String :=
  s!"File {span.source.name}, line {span.start.line + 1}, col {span.start.column + 1}\n\n" ++
    excerpt span.source.text span.start.cell span.stop.cell

end Scriptlet
