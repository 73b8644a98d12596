import Scriptlet.Proofs.Token.Escape

/-!
Lexical faults. A text has tokens up to the first place at which none of them starts, or at which
one starts that the text does not end in time, or that does not fit.
-/

namespace Scriptlet

/-- A slice in front of other characters is the longest one that any rule matches there. -/
structure LongestMatch (slice behind : List Char) : Prop where
  matched : ∃ pattern : Pattern, slice ∈ pattern.language
  longest : ∀ pattern : Pattern, ∀ text ∈ pattern.language, text <+: slice ++ behind →
    text.length ≤ slice.length

/-- Characters in front of others that are sliced by the rules, each slice as long as it can be. -/
inductive Sliced (behind : List Char) : List Char → Prop where
  | nil : Sliced behind []
  | cons {slice chars : List Char} (first : LongestMatch slice (chars ++ behind))
    (others : Sliced behind chars) : Sliced behind (slice ++ chars)

/--
What is wrong at the front of some characters, and how many of them are to blame: an exclamation
mark alone, a quote that is never closed, digits that write too large an integer, or a character
that starts no match of any rule.
-/
inductive LexicalFault : List Char → SyntaxError.Cause → Nat → Prop where
  | exclamation {rest : List Char} (alone : rest.head? ≠ some '=') :
    LexicalFault ('!' :: rest) .loneExclamation 1
  | unclosed {rest : List Char} (runs : ∀ body ∈ literalBody, ¬ body ++ ['"'] <+: rest) :
    LexicalFault ('"' :: rest) .unclosedText (rest.length + 1)
  | tooLarge {digits rest : List Char} (some : digits ≠ [])
    (each : ∀ c ∈ digits, c.isDigit = true) (stops : ∀ c ∈ rest.head?, c.isDigit = false ∧ c ≠ '.')
    (large : 2 ^ 63 - 1 < Nat.ofDigitChars 10 digits 0) :
    LexicalFault (digits ++ rest) (.integerTooLarge (String.ofList digits)) digits.length
  | illegal {c : Char} {rest : List Char}
    (apart : ∀ pattern : Pattern, ∀ text ∈ pattern.language, text.head? ≠ some c) :
    LexicalFault (c :: rest) (.illegalCharacter c) 1

namespace Lexeme

variable {first : Char} {rest : List Char}

/-- What starts an exclamation is a symbol only together with an equals sign. -/
theorem leading_exclamation : Symbol.leading? ('!' :: rest) = none ↔ rest.head? ≠ some '=' := by
  constructor
  · intro missing head
    obtain ⟨others, rfl⟩ := List.head?_eq_some_iff.mp head
    have starts : Symbol.notEqual.spelling.toList <+: '!' :: '=' :: others := ⟨others, rfl⟩
    obtain ⟨found, leading, -⟩ := spelling_le_leading starts
    rw [missing] at leading
    cases leading
  · intro other
    refine List.find?_eq_none.mpr fun sign _ starts => ?_
    have starts := List.isPrefixOf_iff_prefix.mp starts
    cases sign <;> obtain ⟨same, behind⟩ := List.cons_prefix_cons.mp starts <;> cases same
    obtain ⟨others, rfl⟩ := behind
    exact other rfl

/-- Every symbol but the one that starts with an exclamation mark starts with another symbol. -/
theorem exists_single : ∀ sign : Symbol, sign.spelling.toList.head? = some '!' ∨
    ∃ single : Symbol, single.spelling.toList = sign.spelling.toList.take 1 := by
  -- There are only so many symbols.
  have each : ∀ sign ∈ Symbol.all, sign.spelling.toList.head? = some '!' ∨
      ∃ single ∈ Symbol.all, single.spelling.toList = sign.spelling.toList.take 1 := by
    decide
  intro sign
  refine (each sign (Symbol.mem_all sign)).imp_right ?_
  rintro ⟨single, _, same⟩
  exact ⟨single, same⟩

/-- The characters that some rule starts with. -/
theorem starts_iff {c : Char} : (∃ pattern : Pattern, ∃ text, c :: text ∈ pattern.language) ↔
    c.isDigit = true ∨ c.isAlpha = true ∨ c = '"' ∨ isSpace c = true ∨ c = '#' ∨
      (c = '\n' ∨ c = ';') ∨ c = '!' ∨ ∃ single : Symbol, single.spelling.toList = [c] := by
  constructor
  · rintro ⟨pattern, text, fits⟩
    -- One case for each rule; reserved words start like identifiers.
    cases pattern with
    | float =>
      obtain ⟨_, _, _, same, digit, -⟩ := mem_float.mp fits
      cases same
      exact .inl digit
    | int => exact .inl (fits_of_mem_run fits)
    | text =>
      obtain ⟨_, _, same⟩ := mem_text.mp fits
      cases same
      simp
    | openText =>
      obtain ⟨_, _, _, _, same⟩ := openText_eq fits
      cases same
      simp
    | identifier => exact .inr (.inl (fits_of_mem_run fits))
    | keyword word =>
      have fits : c :: text = word.spelling.toList := fits
      exact .inr (.inl (fits_of_mem_run (fits ▸ keyword_identifier word)))
    | symbol sign =>
      have fits : c :: text = sign.spelling.toList := fits
      rcases exists_single sign with mark | ⟨single, same⟩
      · rw [← fits] at mark
        cases mark
        simp
      · rw [← fits] at same
        simpa using .inr (.inr (.inr (.inr (.inr (.inr (.inr ⟨single, same⟩))))))
    | exclamation =>
      cases fits
      simp
    | newline =>
      rcases fits with same | same <;> cases same <;> simp
    | comment =>
      have sharp := fits_of_mem_run fits
      simp only [beq_iff_eq] at sharp
      simp [sharp]
    | space => simp [fits_of_mem_run fits]
  · rintro (digit | alpha | rfl | blank | rfl | (rfl | rfl) | rfl | ⟨single, spelled⟩)
    · exact ⟨.int, [], singleton_mem_run digit⟩
    · exact ⟨.identifier, [], singleton_mem_run alpha⟩
    · exact ⟨.text, ['"'], mem_text.mpr ⟨[], Language.nil_mem_kstar _, rfl⟩⟩
    · exact ⟨.space, [], singleton_mem_run blank⟩
    · exact ⟨.comment, [], singleton_mem_run rfl⟩
    · exact ⟨.newline, [], .inl rfl⟩
    · exact ⟨.newline, [], .inr rfl⟩
    · exact ⟨.exclamation, [], rfl⟩
    · exact ⟨.symbol single, [], spelled.symm⟩

section Faults

variable {cause : SyntaxError.Cause} {width : Nat}

/-- A number is only at fault if its digits write too large an integer. -/
theorem fault_of_number (digit : first.isDigit = true)
    (found : number first rest = (.fault cause, width)) :
    LexicalFault (first :: rest) cause (width + 1) := by
  have reads := number_read first rest
  rw [found] at reads
  cases reads with
  | @tooLarge digits behind each stops written =>
    have beyond := (Numeric.readWord_eq_none_iff digit each).mp written
    rw [Numeric.greatestWord] at beyond
    rw [← List.cons_append]
    exact .tooLarge (List.cons_ne_nil _ _) (List.forall_mem_cons.mpr ⟨digit, each⟩) stops (by omega)

/-- A text literal is only at fault if nothing closes it. -/
theorem fault_of_text (found : text rest = (.fault cause, width)) :
    LexicalFault ('"' :: rest) cause (width + 1) := by
  unfold text at found
  cases closed : textBody rest with
  | some parsed =>
    rw [closed] at found
    cases found
  | none =>
    rw [closed] at found
    cases found
    refine .unclosed fun body inside starts => ?_
    obtain ⟨more, rfl⟩ := starts
    have closing := (LiteralText.of_literalBody inside).textBody more
    rw [List.append_assoc, List.singleton_append, closing] at closed
    cases closed

/-- What should be a symbol is at fault if no rule starts so, or if an equals sign is missing. -/
theorem fault_of_symbol
    (apart : ¬ (first.isDigit = true ∨ first.isAlpha = true ∨ first = '"' ∨ isSpace first = true ∨
      first = '#' ∨ first = '\n' ∨ first = ';'))
    (found : symbol first rest = (.fault cause, width)) :
    LexicalFault (first :: rest) cause (width + 1) := by
  unfold symbol at found
  cases leading : Symbol.leading? (first :: rest) with
  | some sign =>
    rw [leading] at found
    cases found
  | none =>
    rw [leading] at found
    by_cases mark : first = '!'
    · subst mark
      cases found
      exact .exclamation (leading_exclamation.mp leading)
    · simp only [mark, if_false] at found
      cases found
      refine .illegal fun pattern text fits head => ?_
      obtain ⟨more, rfl⟩ := List.head?_eq_some_iff.mp head
      have single : ¬ ∃ single : Symbol, single.spelling.toList = [first] := by
        rintro ⟨single, spelled⟩
        have starts : single.spelling.toList <+: first :: rest := spelled ▸ ⟨rest, rfl⟩
        obtain ⟨found, present, -⟩ := spelling_le_leading starts
        rw [leading] at present
        cases present
      have starts := starts_iff.mp ⟨pattern, more, fits⟩
      tauto

/-- What is read as a fault is one, and of the same width. -/
theorem fault_of_read (found : read first rest = (.fault cause, width)) :
    LexicalFault (first :: rest) cause (width + 1) := by
  -- One case for each way to start a lexeme; neither words nor blanks are ever at fault.
  unfold read at found
  split at found
  · rename_i digit
    exact fault_of_number digit found
  rename_i digit
  split at found
  · simp only [word] at found
    split at found <;> cases found
  rename_i alpha
  split at found
  · rename_i quote
    subst quote
    exact fault_of_text found
  rename_i quote
  split at found
  · cases found
  rename_i blank
  split at found
  · cases found
  rename_i sharp
  split at found
  · cases found
  rename_i line
  exact fault_of_symbol (by tauto) found

end Faults

end Lexeme

/-- A fault is read as one, and of the same width. -/
theorem LexicalFault.read {chars : List Char} {cause : SyntaxError.Cause} {width : Nat}
    (fault : LexicalFault chars cause width) :
    ∃ first rest more, chars = first :: rest ∧ width = more + 1 ∧
      Lexeme.read first rest = (.fault cause, more) := by
  cases fault with
  | @exclamation rest alone =>
    refine ⟨'!', rest, 0, rfl, rfl, ?_⟩
    show Lexeme.symbol '!' rest = _
    rw [Lexeme.symbol, Lexeme.leading_exclamation.mpr alone]
    rfl
  | @unclosed rest runs =>
    refine ⟨'"', rest, rest.length, rfl, rfl, ?_⟩
    show Lexeme.text rest = _
    cases closed : Lexeme.textBody rest with
    | none => rw [Lexeme.text, closed]
    | some parsed =>
      -- A literal that is closed has a body with a quote behind it.
      obtain ⟨value, width⟩ := parsed
      obtain ⟨body, inside, slice, -⟩ := Lexeme.textBody_spelled closed
      exact absurd (slice ▸ List.take_prefix width rest) (runs body inside)
  | @tooLarge digits rest some each stops large =>
    obtain ⟨first, digits, rfl⟩ := List.exists_cons_of_ne_nil some
    rw [List.forall_mem_cons] at each
    refine ⟨first, digits ++ rest, digits.length, rfl, rfl, ?_⟩
    have beyond : Numeric.greatestWord < (Nat.ofDigitChars 10 (first :: digits) 0 : Int) := by
      rw [Numeric.greatestWord]
      omega
    have written := (Numeric.readWord_eq_none_iff each.1 each.2).mpr beyond
    rw [Lexeme.read_digit each.1, (Lexeme.NumberRead.tooLarge each.2 stops written).eq]
  | @illegal c rest apart =>
    refine ⟨c, rest, 0, rfl, rfl, ?_⟩
    -- Every branch of the reader but the last one is for a character that some rule starts with.
    have starts : ¬ ∃ pattern : Pattern, ∃ text, c :: text ∈ pattern.language := by
      rintro ⟨pattern, text, fits⟩
      exact apart pattern _ fits rfl
    have starts := mt Lexeme.starts_iff.mpr starts
    simp only [not_or, not_exists] at starts
    obtain ⟨digit, alpha, quote, blank, sharp, line, mark, single⟩ := starts
    -- A symbol would start with the character, too.
    have missing : Symbol.leading? (c :: rest) = none := by
      refine List.find?_eq_none.mpr fun sign _ prefixes => ?_
      have prefixes := List.isPrefixOf_iff_prefix.mp prefixes
      obtain ⟨front, others, spelled⟩ : ∃ front others, sign.spelling.toList = front :: others := by
        cases sign <;> exact ⟨_, _, rfl⟩
      rw [spelled] at prefixes
      obtain ⟨rfl, -⟩ := List.cons_prefix_cons.mp prefixes
      exact apart (.symbol sign) _ spelled.symm rfl
    rw [Lexeme.read, if_neg digit, if_neg alpha, if_neg quote, if_neg blank, if_neg sharp,
      if_neg (not_or.mpr line), Lexeme.symbol, missing]
    simp only [mark, if_false]

end Scriptlet
