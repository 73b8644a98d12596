import Scriptlet.Source.LineStart

/-! Named program texts, the places inside them, and the ranges between two places. -/

namespace Scriptlet

/-- A program text together with the name that reports give it. -/
structure Source where
  name : String
  text : String
deriving DecidableEq, Repr, Inhabited

/-- A place in a text: the characters before it, and its line and column, all counted from zero. -/
structure Position where
  index : Nat
  line : Nat
  column : Nat
deriving DecidableEq, Repr, Inhabited

namespace Position

/-- The place where every text starts. -/
def start : Position := ⟨0, 0, 0⟩

/-- The place after one more character; a newline leads to the first column of the next line. -/
def advance (place : Position) (c : Char) : Position :=
  if c = '\n' then
    { index := place.index + 1, line := place.line + 1, column := 0 }
  else
    { index := place.index + 1, line := place.line, column := place.column + 1 }

/-- The place after reading characters one by one. -/
def advanceBy (place : Position) (chars : List Char) : Position :=
  chars.foldl advance place

@[simp] theorem advanceBy_nil (place : Position) : place.advanceBy [] = place := rfl

@[simp] theorem advanceBy_cons (place : Position) (c : Char) (rest : List Char) :
    place.advanceBy (c :: rest) = (place.advance c).advanceBy rest := rfl

/-- Reading two texts in turn is reading their concatenation. -/
theorem advanceBy_append (place : Position) (first second : List Char) :
    place.advanceBy (first ++ second) = (place.advanceBy first).advanceBy second :=
  List.foldl_append

/-- Every character moves the index by one. -/
theorem index_advanceBy (place : Position) (chars : List Char) :
    (place.advanceBy chars).index = place.index + chars.length := by
  -- Both branches of `advance` count the character.
  induction chars generalizing place with
  | nil => rfl
  | cons c rest ih =>
    rw [advanceBy_cons, ih, List.length_cons]
    unfold advance
    split <;> simp <;> omega

end Position

namespace Source

/-- Where the lines of a source start. -/
def lineStarts (source : Source) : Array LineStart :=
  LineStart.table source.text

/-- The text of a line counted from zero without its newline, if the source has that line. -/
def line (source : Source) (number : Nat) : Option String := do
  let start ← source.lineStarts[number]?
  let stop :=
    match source.lineStarts[number + 1]? with
    | some next => next.byte - 1
    | none => source.text.utf8ByteSize
  Text.between? source.text start.byte stop

/-- The number of the last line that starts at a byte offset or before it. -/
def lineAt (source : Source) (byte : Nat) : Fin source.lineStarts.size :=
  ⟨partitionPoint (·.byte ≤ byte) source.lineStarts - 1, by
    have := LineStart.size_table_pos source.text
    have := partitionPoint_le (·.byte ≤ byte) source.lineStarts
    unfold lineStarts at *
    omega⟩

/--
The place of a byte offset; offsets past the end of the text mean its end. An offset inside a
character counts as the start of its line.
-/
def position (source : Source) (byte : Nat) : Position :=
  let byte := min byte source.text.utf8ByteSize
  let line := source.lineAt byte
  let start := source.lineStarts[line]
  let column := ((Text.between? source.text start.byte byte).map String.length).getD 0
  { index := start.char + column, line, column }

end Source

/-- The range of a source from one place up to, and without, another. -/
structure Span where
  source : Source
  start : Position
  stop : Position
deriving DecidableEq, Repr, Inhabited

/-- The range from the start of one span to the end of another. -/
def Span.through (first last : Span) : Span :=
  { first with stop := last.stop }

end Scriptlet
