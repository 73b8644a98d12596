import Scriptlet.Proofs.Numeric.Written
import Scriptlet.Proofs.Token.Lexeme
import Scriptlet.Proofs.Token.Pattern

/-!
Every lexeme is as long as the rules allow, and a token is what a rule makes of its own characters.
-/

namespace Scriptlet

open Computability

section Languages

variable {first more : Char → Bool} {text : List Char}

/-- Repetitions of a class are the texts of its characters. -/
theorem mem_oneOf_kstar : text ∈ (oneOf more)∗ ↔ ∀ c ∈ text, more c = true := by
  rw [Language.mem_kstar]
  constructor
  · rintro ⟨parts, rfl, each⟩ c member
    obtain ⟨part, inside, member⟩ := List.mem_flatten.mp member
    obtain ⟨d, fits, rfl⟩ := each part inside
    obtain rfl := List.mem_singleton.mp member
    exact fits
  · intro each
    refine ⟨text.map fun c => [c], ?_, fun part inside => ?_⟩
    · rw [← List.flatMap_def, List.flatMap_singleton']
    obtain ⟨c, member, rfl⟩ := List.mem_map.mp inside
    exact ⟨c, each c member, rfl⟩

/-- A run is a first character and then characters of the other class. -/
theorem mem_run : text ∈ run first more ↔
    ∃ c rest, text = c :: rest ∧ first c = true ∧ ∀ d ∈ rest, more d = true := by
  rw [run, Language.mem_mul]
  constructor
  · rintro ⟨_, ⟨c, fits, rfl⟩, rest, others, rfl⟩
    exact ⟨c, rest, rfl, fits, mem_oneOf_kstar.mp others⟩
  · rintro ⟨c, rest, rfl, fits, others⟩
    exact ⟨[c], ⟨c, fits, rfl⟩, rest, mem_oneOf_kstar.mpr others, rfl⟩

/-- A run starts with a character of its first class. -/
theorem fits_of_mem_run {c : Char} (fits : c :: text ∈ run first more) : first c = true := by
  obtain ⟨_, _, same, starts, -⟩ := mem_run.mp fits
  cases same
  exact starts

/-- One character of the first class is a run. -/
theorem singleton_mem_run {c : Char} (fits : first c = true) : [c] ∈ run first more :=
  mem_run.mpr ⟨c, [], rfl, fits, nofun⟩

/-- A float is a run of digits, a point, and digits. -/
theorem mem_float : text ∈ Pattern.float.language ↔ ∃ c whole fraction,
    text = c :: (whole ++ '.' :: fraction) ∧ c.isDigit = true ∧
      (∀ d ∈ whole, d.isDigit = true) ∧ ∀ d ∈ fraction, d.isDigit = true := by
  rw [Pattern.language, Language.mem_mul]
  constructor
  · rintro ⟨_, front, _, ⟨_, rfl, fraction, digits, rfl⟩, rfl⟩
    obtain ⟨c, whole, rfl, digit, others⟩ := mem_run.mp front
    exact ⟨c, whole, fraction, rfl, digit, others, mem_oneOf_kstar.mp digits⟩
  · rintro ⟨c, whole, fraction, rfl, digit, others, digits⟩
    exact ⟨_, mem_run.mpr ⟨c, whole, rfl, digit, others⟩, _,
      ⟨_, rfl, fraction, mem_oneOf_kstar.mpr digits, rfl⟩, rfl⟩

/-- A text literal is what stands between two quotes. -/
theorem mem_text : text ∈ Pattern.text.language ↔
    ∃ body ∈ literalBody, text = '"' :: (body ++ ['"']) := by
  rw [Pattern.language, Language.mem_mul]
  constructor
  · rintro ⟨_, rfl, _, ⟨body, inside, _, rfl, rfl⟩, rfl⟩
    exact ⟨body, inside, rfl⟩
  · rintro ⟨body, inside, rfl⟩
    exact ⟨_, rfl, _, ⟨body, inside, _, rfl, rfl⟩, rfl⟩

/-- A text literal without its closing quote has at most one character behind its body. -/
theorem openText_eq (open' : text ∈ Pattern.openText.language) :
    ∃ body ∈ literalBody, ∃ last : List Char, last.length ≤ 1 ∧ text = '"' :: (body ++ last) := by
  obtain ⟨_, rfl, _, ⟨body, inside, last, ends, rfl⟩, rfl⟩ := Language.mem_mul.mp open'
  refine ⟨body, inside, last, ?_, rfl⟩
  rcases (Language.mem_add _ _ _).mp ends with rfl | rfl <;> simp

end Languages

/-- Characters of a class that a text starts with are among the first ones of the class. -/
theorem length_le_takeWhile {inside : Char → Bool} {front rest : List Char}
    (starts : front <+: rest) (each : ∀ c ∈ front, inside c = true) :
    front.length ≤ (rest.takeWhile inside).length := by
  obtain ⟨others, rfl⟩ := starts
  rw [List.takeWhile_append_of_pos each, List.length_append]
  exact Nat.le_add_right _ _

/-- No rule reads the end of the text. -/
theorem Pattern.Reads.ne_endOfText {pattern : Pattern} {slice : List Char} {kind : TokenKind}
    (reads : pattern.Reads slice kind) : kind ≠ .endOfText := by
  rintro rfl
  cases pattern <;> simp [Pattern.Reads] at reads

namespace Lexeme

section Branches

variable {first : Char} {rest : List Char}

/-- Digits start numbers. -/
theorem read_digit (digit : first.isDigit = true) : read first rest = number first rest :=
  if_pos digit

/-- A letter is none of the other characters that lexemes start with. -/
theorem not_digit_of_alpha (alpha : first.isAlpha = true) : first.isDigit = false := by
  unfold Char.isAlpha Char.isUpper Char.isLower at alpha
  unfold Char.isDigit
  simp only [Bool.or_eq_true, Bool.and_eq_true, Bool.and_eq_false_iff, decide_eq_true_eq,
    decide_eq_false_iff_not, UInt32.le_iff_toNat_le, ge_iff_le] at alpha ⊢
  change 65 ≤ first.toNat ∧ first.toNat ≤ 90 ∨ 97 ≤ first.toNat ∧ first.toNat ≤ 122 at alpha
  change ¬ 48 ≤ first.toNat ∨ ¬ first.toNat ≤ 57
  omega

/-- Letters start words. -/
theorem read_alpha (alpha : first.isAlpha = true) : read first rest = word first rest := by
  rw [read, if_neg (by simp [not_digit_of_alpha alpha]), if_pos alpha]

/-- Blanks are skipped together. -/
theorem read_space (blank : isSpace first = true) :
    read first rest = (.blank, (rest.takeWhile isSpace).length) := by
  simp only [isSpace, Bool.or_eq_true, beq_iff_eq] at blank
  rcases blank with ((rfl | rfl) | rfl) | rfl <;> rfl

/-- Nothing but a symbol starts like one. -/
theorem read_symbol {sign : Symbol} (starts : sign.spelling.toList <+: first :: rest) :
    read first rest = symbol first rest := by
  cases sign <;> obtain ⟨rfl, _⟩ := List.cons_prefix_cons.mp starts <;> rfl

end Branches

section Longest

variable {first : Char} {rest text : List Char}

/-- A run of digits is in the number that starts with it. -/
theorem digits_le_number (first : Char) (rest : List Char) :
    (rest.takeWhile Char.isDigit).length ≤ (number first rest).2 := by
  have reads := number_read first rest
  generalize number first rest = read at reads ⊢
  cases reads with
  | decimal each decimals stops =>
    rw [List.append_assoc, takeWhile_append_eq each (by simp)]
    exact Nat.le_trans (Nat.le_add_right _ _) (Nat.le_add_right _ _)
  | integer each stops => rw [takeWhile_append_eq each fun c head => (stops c head).1]
  | tooLarge each stops => rw [takeWhile_append_eq each fun c head => (stops c head).1]

/-- A point and digits behind digits are in the number too. -/
theorem fraction_le_number {whole fraction others : List Char}
    (digits : ∀ d ∈ whole, d.isDigit = true) (decimals : ∀ d ∈ fraction, d.isDigit = true)
    (first : Char) : (whole ++ '.' :: fraction).length ≤
      (number first (whole ++ '.' :: (fraction ++ others))).2 := by
  -- The number may go on with more digits.
  obtain ⟨more, behind, rfl, each, stops⟩ := exists_run Char.isDigit others
  have reads : NumberRead first (whole ++ '.' :: (fraction ++ more) ++ behind) _ :=
    .decimal digits (List.forall_mem_append.mpr ⟨decimals, each⟩) stops
  rw [List.append_assoc, List.cons_append, List.append_assoc] at reads
  rw [reads.eq]
  simp only [List.length_append, List.length_cons]
  omega

/-- A word takes all the characters that identifiers go on with. -/
theorem word_width (first : Char) (rest : List Char) :
    (word first rest).2 = (rest.takeWhile isIdentifierPart).length := by
  simp only [word]
  cases Keyword.ofSpelling? (first :: rest.takeWhile isIdentifierPart) <;> rfl

/-- The spelling of a reserved word would be an identifier. -/
theorem keyword_identifier (word : Keyword) :
    word.spelling.toList ∈ Pattern.identifier.language := by
  refine mem_run.mpr ?_
  cases word <;> exact ⟨_, _, rfl, by decide, List.all_eq_true.mp (by decide)⟩

/-- What can stand before a closing quote ends before the first quote that is not escaped. -/
theorem literalBody_lt {body value : List Char} {width : Nat} (inside : body ∈ literalBody)
    (starts : body <+: rest) (closed : textBody rest = some (value, width)) :
    body.length < width := by
  -- One character after the other, and escaped ones with their escape.
  obtain ⟨parts, rfl, each⟩ := Language.mem_kstar.mp inside
  clear inside
  induction parts generalizing rest value width with
  | nil =>
    cases width with
    | zero =>
      -- The closing quote is always counted.
      fun_cases textBody rest <;> simp_all [textBody]
    | succ width => exact Nat.succ_pos width
  | cons part parts ih =>
    rw [List.forall_mem_cons] at each
    rw [List.flatten_cons] at starts ⊢
    rcases (Language.mem_add _ _ _).mp each.1 with ⟨c, plain, rfl⟩ | escaped
    · obtain ⟨noQuote, noEscape⟩ : c ≠ '"' ∧ c ≠ '\\' := by simpa using plain
      obtain ⟨others, rfl⟩ := starts
      rw [List.append_assoc, List.singleton_append, textBody_plain noEscape noQuote] at closed
      obtain ⟨⟨inner, spelled⟩, behind, same⟩ := Option.map_eq_some_iff.mp closed
      cases same
      have shorter := ih behind each.2 (List.prefix_append _ _)
      rw [List.length_append, List.length_singleton]
      omega
    · obtain ⟨_, rfl, _, ⟨c, _, rfl⟩, rfl⟩ := Language.mem_mul.mp escaped
      obtain ⟨others, rfl⟩ := starts
      simp only [List.cons_append, List.nil_append, textBody] at closed
      obtain ⟨⟨inner, spelled⟩, behind, same⟩ := Option.map_eq_some_iff.mp closed
      cases same
      have shorter := ih behind each.2 (List.prefix_append _ _)
      simp only [List.cons_append, List.nil_append, List.length_cons]
      omega

/-- The closing quote comes behind all that can stand before one. -/
theorem literal_le_text {body last : List Char} (inside : body ∈ literalBody)
    (short : last.length ≤ 1) (starts : body ++ last <+: rest) :
    (body ++ last).length ≤ (Lexeme.text rest).2 := by
  unfold Lexeme.text
  cases closed : textBody rest with
  | none => exact starts.length_le
  | some parsed =>
    obtain ⟨value, width⟩ := parsed
    have shorter := literalBody_lt inside ((List.prefix_append body last).trans starts) closed
    rw [List.length_append]
    show body.length + last.length ≤ width
    omega

/-- No symbol stands before one that its text is the start of. -/
theorem symbols_ordered :
    Symbol.all.Pairwise fun sign longer => ¬ sign.spelling.toList <+: longer.spelling.toList := by
  decide

/-- The symbol that a text starts with is the longest one that it starts with. -/
theorem spelling_le_leading {sign : Symbol} (starts : sign.spelling.toList <+: text) :
    ∃ found, Symbol.leading? text = some found ∧
      sign.spelling.length ≤ found.spelling.length := by
  have suits : sign.spelling.toList.isPrefixOf text = true := List.isPrefixOf_iff_prefix.mpr starts
  cases leading : Symbol.leading? text with
  | none => exact absurd suits (List.find?_eq_none.mp leading sign (Symbol.mem_all sign))
  | some found =>
    refine ⟨found, rfl, ?_⟩
    obtain ⟨same, sooner, later, split, before⟩ := List.find?_eq_some_iff_append.mp leading
    have ordered := symbols_ordered
    have member := Symbol.mem_all sign
    rw [split, List.mem_append, List.mem_cons] at member
    rw [split] at ordered
    rcases member with early | rfl | late
    · have other := before sign early
      rw [suits] at other
      cases other
    · exact Nat.le_refl _
    · -- A longer symbol behind the one that was found would start with that one.
      have apart := List.rel_of_pairwise_cons (List.pairwise_append.mp ordered).2.1 late
      by_contra longer
      refine apart (List.prefix_of_prefix_length_le (List.isPrefixOf_iff_prefix.mp same) starts ?_)
      rw [String.length_toList, String.length_toList]
      omega

/-- An identifier that a text starts with is in the word that the text starts with. -/
theorem identifier_le_read (fits : text ∈ Pattern.identifier.language)
    (starts : text <+: first :: rest) : text.length ≤ (read first rest).2 + 1 := by
  obtain ⟨c, letters, rfl, alpha, each⟩ := mem_run.mp fits
  obtain ⟨rfl, within⟩ := List.cons_prefix_cons.mp starts
  rw [read_alpha alpha, word_width]
  exact Nat.succ_le_succ (length_le_takeWhile within each)

/-- No rule matches more of a text than the lexeme that it starts with. -/
theorem read_longest (pattern : Pattern) (fits : text ∈ pattern.language)
    (starts : text <+: first :: rest) : text.length ≤ (read first rest).2 + 1 := by
  -- Each rule is met by the branch of the reader for the character that the rule starts with.
  cases pattern with
  | float =>
    obtain ⟨c, whole, fraction, rfl, digit, digits, decimals⟩ := mem_float.mp fits
    obtain ⟨rfl, others, rfl⟩ := List.cons_prefix_cons.mp starts
    rw [read_digit digit, List.append_assoc]
    exact Nat.succ_le_succ (fraction_le_number digits decimals c)
  | int =>
    obtain ⟨c, digits, rfl, digit, each⟩ := mem_run.mp fits
    obtain ⟨rfl, within⟩ := List.cons_prefix_cons.mp starts
    rw [read_digit digit]
    exact Nat.succ_le_succ (Nat.le_trans (length_le_takeWhile within each) (digits_le_number _ _))
  | text =>
    obtain ⟨body, inside, rfl⟩ := mem_text.mp fits
    obtain ⟨rfl, within⟩ := List.cons_prefix_cons.mp starts
    exact Nat.succ_le_succ (literal_le_text inside (Nat.le_refl 1) within)
  | openText =>
    obtain ⟨body, inside, last, short, rfl⟩ := openText_eq fits
    obtain ⟨rfl, within⟩ := List.cons_prefix_cons.mp starts
    exact Nat.succ_le_succ (literal_le_text inside short within)
  | identifier => exact identifier_le_read fits starts
  | keyword word =>
    obtain rfl := fits
    exact identifier_le_read (keyword_identifier word) starts
  | symbol sign =>
    obtain rfl := fits
    obtain ⟨found, leading, shorter⟩ := spelling_le_leading starts
    rw [read_symbol starts, Lexeme.symbol, leading, String.length_toList]
    show sign.spelling.length ≤ found.spelling.length - 1 + 1
    omega
  | exclamation =>
    obtain rfl := fits
    exact Nat.succ_le_succ (Nat.zero_le _)
  | newline =>
    rcases fits with rfl | rfl <;> exact Nat.succ_le_succ (Nat.zero_le _)
  | comment =>
    obtain ⟨c, line, rfl, sharp, each⟩ := mem_run.mp fits
    obtain ⟨rfl, within⟩ := List.cons_prefix_cons.mp starts
    obtain rfl := beq_iff_eq.mp sharp
    exact Nat.succ_le_succ (length_le_takeWhile within (by simpa using each))
  | space =>
    obtain ⟨c, blanks, rfl, blank, each⟩ := mem_run.mp fits
    obtain ⟨rfl, within⟩ := List.cons_prefix_cons.mp starts
    rw [read_space blank]
    exact Nat.succ_le_succ (length_le_takeWhile within each)

end Longest

section Readings

variable {first : Char} {rest : List Char} {kind : TokenKind}

/-- What starts with a digit has no sign, and is read as the number that it writes if that fits. -/
theorem readWord_toInt {digits : List Char} {value : Int64} (digit : first.isDigit = true)
    (each : ∀ c ∈ digits, c.isDigit = true)
    (read : Numeric.readWord (first :: digits) = some value) :
    value.toInt = Nat.ofDigitChars 10 (first :: digits) 0 := by
  rw [Numeric.readWord_of_isDigit digit, Numeric.readDigits_eq (List.cons_ne_nil _ _)
    (List.forall_mem_cons.mpr ⟨digit, each⟩)] at read
  exact Numeric.fit_eq_some_iff.mp read

/-- A number is read by the rule for floats or by the one for integers. -/
theorem number_reads (digit : first.isDigit = true) (found : (number first rest).1 = .token kind) :
    ∃ pattern : Pattern, first :: rest.take (number first rest).2 ∈ pattern.language ∧
      pattern.Reads (first :: rest.take (number first rest).2) kind := by
  have reads := number_read first rest
  generalize number first rest = read at reads found ⊢
  cases reads with
  | @decimal digits fraction behind each decimals stops =>
    cases found
    have width : (digits ++ '.' :: fraction).length = digits.length + 1 + fraction.length := by
      simp only [List.length_append, List.length_cons]
      omega
    rw [List.take_left' width]
    refine ⟨.float, mem_float.mpr ⟨first, _, _, rfl, digit, each, decimals⟩,
      first :: digits, fraction, rfl, ?_⟩
    have all : ∀ c ∈ first :: digits ++ fraction, c.isDigit = true := by
      rw [List.forall_mem_append, List.forall_mem_cons]
      exact ⟨⟨digit, each⟩, decimals⟩
    rw [floatOf, Numeric.readDigits_eq (by simp) all]
    rfl
  | @integer digits behind value each stops written =>
    cases found
    rw [List.take_left]
    exact ⟨.int, mem_run.mpr ⟨first, _, rfl, digit, each⟩, value,
      readWord_toInt digit each written, rfl⟩
  | tooLarge => cases found

/-- A word is read by the rule for its reserved word, or by the one for identifiers. -/
theorem word_reads (alpha : first.isAlpha = true) (found : (word first rest).1 = .token kind) :
    ∃ pattern : Pattern, first :: rest.take (word first rest).2 ∈ pattern.language ∧
      pattern.Reads (first :: rest.take (word first rest).2) kind := by
  have slice : rest.take (word first rest).2 = rest.takeWhile isIdentifierPart := by
    rw [word_width]
    exact (List.prefix_iff_eq_take.mp (List.takeWhile_prefix _)).symm
  rw [slice]
  simp only [word] at found
  cases spelled : Keyword.ofSpelling? (first :: rest.takeWhile isIdentifierPart) with
  | none =>
    rw [spelled] at found
    cases found
    exact ⟨.identifier, mem_run.mpr ⟨first, _, rfl, alpha, fun _ => List.mem_takeWhile_imp⟩, rfl⟩
  | some word =>
    rw [spelled] at found
    cases found
    have same := List.find?_some spelled
    exact ⟨.keyword word, (of_decide_eq_true same).symm, rfl⟩

/-- One more part makes the body of a text literal longer. -/
theorem literalBody_append {part body : List Char}
    (one : part ∈ oneOf (fun c => c != '"' && c != '\\') + {['\\']} * oneOf fun _ => true)
    (inside : body ∈ literalBody) : part ++ body ∈ literalBody := by
  rw [literalBody, ← Language.one_add_self_mul_kstar_eq_kstar]
  exact .inr (Language.append_mem_mul one inside)

/-- What a text literal stands for is what is spelled before its closing quote. -/
theorem textBody_spelled : ∀ {rest value : List Char} {width : Nat},
    textBody rest = some (value, width) →
      ∃ body ∈ literalBody, rest.take width = body ++ ['"'] ∧ resolve body = value := by
  intro rest
  -- The induction follows the literal; an escape takes two characters at a time.
  induction rest using textBody.induct with
  | case1 => simp [textBody]
  | case2 => simp [textBody]
  | case3 c rest ih =>
    intro value width closed
    obtain ⟨⟨inner, spelled⟩, behind, same⟩ := Option.map_eq_some_iff.mp closed
    cases same
    obtain ⟨body, inside, slice, resolved⟩ := ih behind
    refine ⟨['\\', c] ++ body, literalBody_append (.inr ?_) inside, ?_, ?_⟩
    · exact Language.append_mem_mul (a := ['\\']) rfl ⟨c, rfl, rfl⟩
    · simp [slice]
    · simp [resolve, resolved]
  | case4 rest =>
    intro value width closed
    cases closed
    exact ⟨[], Language.nil_mem_kstar _, rfl, rfl⟩
  | case5 c rest alone escaped quote ih =>
    intro value width closed
    have noEscape := ne_escape alone escaped
    rw [textBody_plain noEscape quote] at closed
    obtain ⟨⟨inner, spelled⟩, behind, same⟩ := Option.map_eq_some_iff.mp closed
    cases same
    obtain ⟨body, inside, slice, resolved⟩ := ih behind
    refine ⟨[c] ++ body, literalBody_append (.inl ⟨c, ?_, rfl⟩) inside, ?_, ?_⟩
    · simpa using ⟨quote, noEscape⟩
    · simp [slice]
    · -- A character that is no backslash stands for itself.
      rw [List.singleton_append, resolve, resolved]
      · rintro rfl
        exact absurd rfl noEscape
      · rintro _ _ rfl
        exact absurd rfl noEscape

/-- A text literal is read by its rule. -/
theorem text_reads (found : (text rest).1 = .token kind) :
    ∃ pattern : Pattern, '"' :: rest.take (text rest).2 ∈ pattern.language ∧
      pattern.Reads ('"' :: rest.take (text rest).2) kind := by
  unfold text at found ⊢
  cases closed : textBody rest with
  | none => simp [closed] at found
  | some parsed =>
    obtain ⟨value, width⟩ := parsed
    rw [closed] at found
    cases found
    obtain ⟨body, inside, slice, rfl⟩ := textBody_spelled closed
    simp only [slice]
    refine ⟨.text, mem_text.mpr ⟨body, inside, rfl⟩, ?_⟩
    simp [Pattern.Reads]

/-- A symbol is read by its rule. -/
theorem symbol_reads (found : (symbol first rest).1 = .token kind) :
    ∃ pattern : Pattern, first :: rest.take (symbol first rest).2 ∈ pattern.language ∧
      pattern.Reads (first :: rest.take (symbol first rest).2) kind := by
  unfold symbol at found ⊢
  cases leading : Symbol.leading? (first :: rest) with
  | none => simp [leading] at found
  | some sign =>
    rw [leading] at found
    cases found
    have suits := List.find?_some leading
    have starts := List.isPrefixOf_iff_prefix.mp suits
    have some : 0 < sign.spelling.length := by cases sign <;> decide
    have slice : first :: rest.take (sign.spelling.length - 1) = sign.spelling.toList := by
      rw [List.prefix_iff_eq_take.mp starts, String.length_toList, ← List.take_succ_cons,
        Nat.sub_add_cancel some]
    simp only [slice]
    exact ⟨.symbol sign, rfl, rfl⟩

/-- A token is what a rule makes of its own characters. -/
theorem read_reads (found : (read first rest).1 = .token kind) :
    ∃ pattern : Pattern, first :: rest.take (read first rest).2 ∈ pattern.language ∧
      pattern.Reads (first :: rest.take (read first rest).2) kind := by
  -- One case for each way to start a lexeme.
  unfold read at found ⊢
  split at found
  · rename_i digit
    simp only [if_pos digit]
    exact number_reads digit found
  split at found
  · rename_i digit alpha
    simp only [if_neg digit, if_pos alpha]
    exact word_reads alpha found
  split at found
  · rename_i digit alpha quote
    subst quote
    exact text_reads found
  split at found
  · cases found
  split at found
  · cases found
  split at found
  · rename_i line
    cases found
    rcases line with rfl | rfl
    · exact ⟨.newline, .inl rfl, rfl⟩
    · exact ⟨.newline, .inr rfl, rfl⟩
  · rename_i digit alpha quote blank comment line
    simp only [if_neg digit, if_neg alpha, if_neg quote, if_neg blank, if_neg comment, if_neg line]
    exact symbol_reads found

/-- No lexeme is the end of the text. -/
theorem read_ne_endOfText (first : Char) (rest : List Char) :
    (read first rest).1 ≠ .token .endOfText := by
  intro found
  obtain ⟨pattern, _, reads⟩ := read_reads found
  exact reads.ne_endOfText rfl

/-- A word that is spelled like a reserved word is that word. -/
theorem read_keyword {word : Keyword}
    (spelled : first :: rest.take (read first rest).2 = word.spelling.toList) :
    (read first rest).1 = .token (.keyword word) := by
  have identifier := keyword_identifier word
  rw [← spelled] at identifier
  have alpha := fits_of_mem_run identifier
  have known : Keyword.ofSpelling? word.spelling.toList = some word := by cases word <;> decide
  rw [read_alpha alpha] at spelled ⊢
  rw [word_width, ← List.prefix_iff_eq_take.mp (List.takeWhile_prefix _)] at spelled
  simp only [Lexeme.word, spelled, known]

end Readings

section Blanks

variable {first : Char} {rest skipped behind : List Char}

/-- Blanks in front of what is skipped are skipped too. -/
theorem skipped_spaces {blanks : List Char} (each : ∀ c ∈ blanks, isSpace c = true)
    (more : Skipped behind skipped) : Skipped behind (blanks ++ skipped) := by
  induction blanks with
  | nil => exact more
  | cons c blanks ih =>
    rw [List.forall_mem_cons] at each
    exact .space each.1 (ih each.2)

/-- Only blanks and comments are skipped. -/
theorem starts_blank (found : (read first rest).1 = .blank) :
    isSpace first = true ∨ first = '#' := by
  unfold read at found
  split at found
  · simp only [number] at found
    split at found
    · cases found
    · split at found <;> cases found
  split at found
  · simp only [word] at found
    split at found <;> cases found
  split at found
  · unfold text at found
    split at found <;> cases found
  split at found
  · rename_i blank
    exact .inl blank
  split at found
  · rename_i sharp
    exact .inr sharp
  split at found
  · cases found
  · unfold symbol at found
    split at found <;> cases found

/-- A lexeme that is no token and no fault is skipped, in front of what is skipped behind it. -/
theorem skipped_read (found : (read first rest).1 = .blank)
    (split : rest.drop (read first rest).2 = skipped ++ behind) (more : Skipped behind skipped) :
    Skipped behind (first :: rest.take (read first rest).2 ++ skipped) := by
  have taken : ∀ inside : Char → Bool,
      rest.take (rest.takeWhile inside).length = rest.takeWhile inside :=
    fun inside => (List.prefix_iff_eq_take.mp (List.takeWhile_prefix inside)).symm
  rcases starts_blank found with blank | rfl
  · rw [read_space blank, taken]
    exact .space blank (skipped_spaces (fun _ => List.mem_takeWhile_imp) more)
  · have width : (read '#' rest).2 = (rest.takeWhile (· ≠ '\n')).length := rfl
    rw [width] at split ⊢
    rw [taken]
    refine .comment (fun newline => ?_) (fun c head => ?_) more
    · simpa using List.mem_takeWhile_imp newline
    · -- Behind the first characters that are no newline there is one, or nothing.
      rw [← split, drop_takeWhile] at head
      simpa using stops_dropWhile _ _ c head

end Blanks

end Lexeme

end Scriptlet
