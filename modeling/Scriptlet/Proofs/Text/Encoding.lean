import Scriptlet.Text.Blank
import Scriptlet.Text.Bytes

/-! Lines of text as bytes: lines that were written out are the lines that are read. -/

namespace Scriptlet.Text

/-- The bytes of a text in UTF-8. -/
def encode (text : String) : List UInt8 :=
  text.toUTF8.data.toList

/-- The bytes of lines, each ended by a newline. -/
def encodeLines (lines : List String) : List UInt8 :=
  lines.flatMap fun line => encode line ++ [10]

/-- A line as it is typed: it holds no newline, and no carriage return at its end. -/
structure IsLine (line : String) : Prop where
  noNewline : '\n' ∉ line.toList
  noReturn : line.toList.getLast? ≠ some '\r'

/-- Whether a line is one as it is typed can be seen. -/
instance (line : String) : Decidable (IsLine line) :=
  decidable_of_iff ('\n' ∉ line.toList ∧ line.toList.getLast? ≠ some '\r')
    ⟨fun both => ⟨both.1, both.2⟩, fun typed => ⟨typed.noNewline, typed.noReturn⟩⟩

/-- The bytes of a text are read as the text. -/
theorem decode?_encode (text : String) : decode? (encode text) = some text := by
  have same : (⟨text.toUTF8.data.toList.toArray⟩ : ByteArray) = text.toByteArray := by simp
  unfold decode? encode
  rw [same]
  simp only [String.fromUTF8?, dif_pos text.isValidUTF8]
  rfl

/-- Only a newline has the byte of one: all other bytes of a character are greater than that. -/
theorem newline_notMem_utf8EncodeChar {c : Char} (other : c ≠ '\n') :
    10 ∉ String.utf8EncodeChar c := by
  have code : c.val.toNat ≠ 10 := by
    intro same
    exact other (Char.ext (UInt32.toNat.inj (by simpa using same)))
  unfold String.utf8EncodeChar
  generalize c.val.toNat = v at code
  -- One case for each number of bytes.
  simp only
  split
  · simp [← UInt8.toNat_inj]
    omega
  · split
    · simp [← UInt8.toNat_inj]
      omega
    · split
      · simp [← UInt8.toNat_inj]
        omega
      · simp [← UInt8.toNat_inj]
        omega

/-- The bytes of a text without newlines are none of a newline. -/
theorem newline_notMem_encode {text : String} (none : '\n' ∉ text.toList) : 10 ∉ encode text := by
  have bytes : encode text = text.toList.flatMap String.utf8EncodeChar := by
    show text.toByteArray.data.toList = _
    rw [← String.utf8Encode_toList, List.utf8Encode, List.data_toByteArray]
  rw [bytes, List.mem_flatMap]
  rintro ⟨c, member, newline⟩
  have other : c ≠ '\n' := fun same => none (same ▸ member)
  exact newline_notMem_utf8EncodeChar other newline

/-- A piece that a newline ends is the first one. -/
theorem byteLines_append {line : List UInt8} (inside : 10 ∉ line) (rest : List UInt8) :
    byteLines (line ++ 10 :: rest) = line :: byteLines rest := by
  -- The induction goes along the piece.
  induction line with
  | nil => simp [byteLines]
  | cons byte line ih =>
    rw [List.mem_cons, not_or] at inside
    have other : byte ≠ 10 := fun same => inside.1 same.symm
    rw [List.cons_append, byteLines, if_neg other, ih inside.2]

/-- Nothing is dropped of a line as it is typed. -/
theorem dropLineEnds_of_isLine {line : String} (typed : IsLine line) : dropLineEnds line = line := by
  -- The last character of the line is the first one of its reverse, and no line end.
  have kept : dropLastWhile isLineEnd line.toList = line.toList := by
    unfold dropLastWhile
    cases reversed : line.toList.reverse with
    | nil => simpa using reversed.symm
    | cons last rest =>
      have ends : line.toList = rest.reverse ++ [last] := by
        rw [← List.reverse_reverse line.toList, reversed, List.reverse_cons]
      have noNewline : last ≠ '\n' := by
        rintro rfl
        apply typed.noNewline
        simp [ends]
      have noReturn : last ≠ '\r' := by
        rintro rfl
        apply typed.noReturn
        simp [ends]
      rw [List.dropWhile_cons_of_neg (by simp [isLineEnd, noNewline, noReturn]), ends]
      simp
  rw [dropLineEnds, kept, String.ofList_toList]

/-- Lines that were written out come back as they were. -/
theorem byteLines_encodeLines {lines : List String} (typed : ∀ line ∈ lines, IsLine line) :
    byteLines (encodeLines lines) = lines.map encode := by
  induction lines with
  | nil => rfl
  | cons line lines ih =>
    rw [List.forall_mem_cons] at typed
    have first := newline_notMem_encode typed.1.noNewline
    have split : encodeLines (line :: lines) = encode line ++ 10 :: encodeLines lines := by
      simp [encodeLines]
    rw [split, byteLines_append first, ih typed.2, List.map_cons]

/--
The lines of a text: every newline ends one, and what stands behind the last newline is one more line
unless it is empty.
-/
inductive Splits : String → List String → Prop where
  | nothing : Splits "" []
  | last {line : String} (noNewline : '\n' ∉ line.toList) (typed : line ≠ "") : Splits line [line]
  | ended {line rest : String} {lines : List String} (noNewline : '\n' ∉ line.toList)
    (others : Splits rest lines) : Splits (line ++ "\n" ++ rest) (line :: lines)

/-- A character in front of a text with lines is in front of its first line, or ends a line. -/
theorem Splits.cons {text : String} {lines : List String} (split : Splits text lines) (c : Char) :
    ∃ more, Splits (String.singleton c ++ text) more := by
  -- The first line is empty, or starts with the character.
  by_cases newline : c = '\n'
  · have alone : String.singleton c = "" ++ "\n" := by rw [newline]; rfl
    rw [alone]
    exact ⟨"" :: lines, .ended List.not_mem_nil split⟩
  · have other : '\n' ≠ c := Ne.symm newline
    cases split with
    | nothing => exact ⟨[String.singleton c ++ ""], .last (by simp [other]) (by simp)⟩
    | last noNewline _ =>
      exact ⟨[String.singleton c ++ text], .last (by simp [noNewline, other]) (by simp)⟩
    | @ended line rest lines noNewline others =>
      refine ⟨(String.singleton c ++ line) :: lines, ?_⟩
      rw [← String.append_assoc, ← String.append_assoc]
      exact .ended (by simp [noNewline, other]) others

/-- Every text has lines. -/
theorem exists_splits (text : String) : ∃ lines, Splits text lines := by
  -- The induction goes along the characters.
  rw [← String.ofList_toList (s := text)]
  induction text.toList with
  | nil => exact ⟨[], .nothing⟩
  | cons c rest ih =>
    obtain ⟨lines, split⟩ := ih
    obtain ⟨more, split⟩ := split.cons c
    exact ⟨more, by simpa [String.ofList_cons] using split⟩

/-- Bytes of which none is that of a newline are one piece. -/
theorem byteLines_of_notMem {line : List UInt8} (inside : 10 ∉ line) (nonempty : line ≠ []) :
    byteLines line = [line] := by
  -- The induction goes along the bytes.
  induction line with
  | nil => exact absurd rfl nonempty
  | cons byte line ih =>
    rw [List.mem_cons, not_or] at inside
    have other : byte ≠ 10 := fun same => inside.1 same.symm
    rw [byteLines, if_neg other]
    cases line with
    | nil => rfl
    | cons next line => rw [ih inside.2 (List.cons_ne_nil _ _)]

/-- The pieces of the bytes of a text are the bytes of its lines. -/
theorem Splits.byteLines_encode {text : String} {lines : List String} (split : Splits text lines) :
    byteLines (encode text) = lines.map encode := by
  -- The induction goes along the lines.
  induction split with
  | nothing => rfl
  | @last line noNewline typed =>
    refine byteLines_of_notMem (newline_notMem_encode noNewline) fun none => typed ?_
    rw [encode, Array.toList_eq_nil_iff] at none
    rw [← String.toByteArray_inj]
    exact ByteArray.ext none
  | @ended line rest lines noNewline others ih =>
    have bytes : encode (line ++ "\n" ++ rest) = encode line ++ 10 :: encode rest := by
      have newline : encode "\n" = [10] := by decide
      simp [encode] at newline ⊢
      rw [newline, List.singleton_append]
    rw [bytes, byteLines_append (newline_notMem_encode noNewline), ih, List.map_cons]

/-- Bytes that are read as a text are the bytes of the text. -/
theorem eq_encode_of_decode? {bytes : List UInt8} {text : String}
    (valid : decode? bytes = some text) : bytes = encode text := by
  unfold decode? String.fromUTF8? at valid
  split at valid
  · cases valid
    rfl
  · cases valid

end Scriptlet.Text
