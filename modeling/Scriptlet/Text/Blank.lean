/-! Blank characters, and texts with the blanks at their ends removed. -/

namespace Scriptlet.Text

/-- A character is blank when it has the Unicode property `White_Space`. -/
def isBlank (c : Char) : Bool :=
  let code := c.toNat
  (9 ≤ code && code ≤ 13) || code == 0x20 || code == 0x85 || code == 0xA0 || code == 0x1680 ||
    (0x2000 ≤ code && code ≤ 0x200A) || code == 0x2028 || code == 0x2029 || code == 0x202F ||
    code == 0x205F || code == 0x3000

/-- The characters that remain once every last character that satisfies the test is dropped. -/
def dropLastWhile (test : Char → Bool) (chars : List Char) : List Char :=
  (chars.reverse.dropWhile test).reverse

/-- The text between its first and its last character that is not blank. -/
def trim (chars : List Char) : List Char :=
  dropLastWhile isBlank (chars.dropWhile isBlank)

/-- A line end is a newline or a carriage return. -/
def isLineEnd (c : Char) : Bool :=
  c == '\n' || c == '\r'

/-- A line as it was typed, without the line ends that close it. -/
def dropLineEnds (text : String) : String :=
  String.ofList (dropLastWhile isLineEnd text.toList)

end Scriptlet.Text
