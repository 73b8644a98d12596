/-! Bytes as lines of text. -/

namespace Scriptlet.Text

/-- The pieces of some bytes that newlines end; a last piece without one counts if not empty. -/
def byteLines : List UInt8 → List (List UInt8)
  | [] => []
  | byte :: rest =>
    if byte = 10 then
      [] :: byteLines rest
    else
      match byteLines rest with
      | [] => [[byte]]
      | line :: more => (byte :: line) :: more

/-- The text that bytes encode in UTF-8, if they do. -/
def decode? (bytes : List UInt8) : Option String :=
  String.fromUTF8? ⟨bytes.toArray⟩

end Scriptlet.Text
