import Scriptlet.Token.Lexer
import Mathlib.Data.List.TakeWhile

/-! Single lexemes: how far they reach, and that a newline ends all but text literals. -/

namespace Scriptlet

/-- What a condition holds of from the start on does not reach beyond a character that it fails. -/
theorem takeWhile_append_stop {stops : Char → Bool} {stop : Char} (fails : stops stop = false)
    (chars more : List Char) : (chars ++ stop :: more).takeWhile stops = chars.takeWhile stops := by
  -- The induction goes along the characters before the stop.
  induction chars with
  | nil => simp [fails]
  | cons c chars ih =>
    rw [List.cons_append, List.takeWhile_cons, List.takeWhile_cons, ih]

/-- A run of a class that ends where other characters start is all of the run. -/
theorem takeWhile_append_eq {inside : Char → Bool} {slice more : List Char}
    (each : ∀ c ∈ slice, inside c = true) (stops : ∀ c ∈ more.head?, inside c = false) :
    (slice ++ more).takeWhile inside = slice := by
  -- The run goes through the slice, and stops at the first character behind it.
  rw [List.takeWhile_append_of_pos each]
  cases more with
  | nil => exact List.append_nil slice
  | cons c more => rw [List.takeWhile_cons, stops c rfl, if_neg (by decide), List.append_nil]

/-- Behind the first characters of a class is what is left when they are dropped. -/
theorem drop_takeWhile (inside : Char → Bool) (chars : List Char) :
    chars.drop (chars.takeWhile inside).length = chars.dropWhile inside := by
  have dropped : (chars.takeWhile inside ++ chars.dropWhile inside).drop
      (chars.takeWhile inside).length = chars.dropWhile inside := List.drop_left
  rwa [List.takeWhile_append_dropWhile] at dropped

/-- What is left behind the first characters of a class does not start with another one of them. -/
theorem stops_dropWhile (inside : Char → Bool) (chars : List Char) :
    ∀ c ∈ (chars.dropWhile inside).head?, inside c = false := by
  intro c head
  have stops := List.head?_dropWhile_not inside chars
  rw [Option.mem_def.mp head] at stops
  simpa using stops

/-- Every text is a run of a class, and then characters that do not go on with it. -/
theorem exists_run (inside : Char → Bool) (chars : List Char) :
    ∃ run behind, chars = run ++ behind ∧ (∀ c ∈ run, inside c = true) ∧
      ∀ c ∈ behind.head?, inside c = false :=
  ⟨chars.takeWhile inside, chars.dropWhile inside, List.takeWhile_append_dropWhile.symm,
    fun _ => List.mem_takeWhile_imp, stops_dropWhile inside chars⟩

/-- A prefix without a newline does not reach beyond one. -/
theorem isPrefixOf_append_newline {word : List Char} (plain : '\n' ∉ word)
    (chars more : List Char) :
    word.isPrefixOf (chars ++ '\n' :: more) = word.isPrefixOf chars := by
  -- The induction goes along the prefix and along the text.
  induction word generalizing chars with
  | nil => simp
  | cons c word ih =>
    rw [List.mem_cons, not_or] at plain
    cases chars with
    | nil =>
      have differs : (c == '\n') = false := by simpa using Ne.symm plain.1
      simp [List.isPrefixOf, differs]
    | cons first chars =>
      simp only [List.cons_append, List.isPrefixOf, ih plain.2]

namespace Lexeme

/--
How a number is read behind its first digit: as digits up to a point and the digits behind that, or
as digits alone, which may write too large an integer.
-/
inductive NumberRead (first : Char) : List Char → Lexeme × Nat → Prop where
  | decimal {digits fraction behind : List Char} (each : ∀ c ∈ digits, c.isDigit = true)
    (decimals : ∀ c ∈ fraction, c.isDigit = true) (stops : ∀ c ∈ behind.head?, c.isDigit = false) :
    NumberRead first (digits ++ '.' :: fraction ++ behind)
      (.token (.float (floatOf (first :: digits) fraction)), digits.length + 1 + fraction.length)
  | integer {digits behind : List Char} {value : Int64} (each : ∀ c ∈ digits, c.isDigit = true)
    (stops : ∀ c ∈ behind.head?, c.isDigit = false ∧ c ≠ '.')
    (written : Numeric.readWord (first :: digits) = some value) :
    NumberRead first (digits ++ behind) (.token (.int value), digits.length)
  | tooLarge {digits behind : List Char} (each : ∀ c ∈ digits, c.isDigit = true)
    (stops : ∀ c ∈ behind.head?, c.isDigit = false ∧ c ≠ '.')
    (written : Numeric.readWord (first :: digits) = none) :
    NumberRead first (digits ++ behind)
      (.fault (.integerTooLarge (String.ofList (first :: digits))), digits.length)

/-- Digits without a point behind them are an integer, if they are not too many. -/
theorem number_of_no_point {first : Char} {digits behind : List Char}
    (each : ∀ c ∈ digits, c.isDigit = true)
    (stops : ∀ c ∈ behind.head?, c.isDigit = false ∧ c ≠ '.') :
    number first (digits ++ behind) =
      match Numeric.readWord (first :: digits) with
      | some value => (.token (.int value), digits.length)
      | none => (.fault (.integerTooLarge (String.ofList (first :: digits))), digits.length) := by
  have taken : (digits ++ behind).takeWhile Char.isDigit = digits :=
    takeWhile_append_eq each fun c head => (stops c head).1
  simp only [number, taken, List.drop_left]
  split
  · exact absurd rfl (stops '.' rfl).2
  · rfl

/-- A number is read in no other way. -/
theorem NumberRead.eq {first : Char} {rest : List Char} {read : Lexeme × Nat}
    (reads : NumberRead first rest read) : number first rest = read := by
  cases reads with
  | @decimal digits fraction behind each decimals stops =>
    have taken : (digits ++ '.' :: (fraction ++ behind)).takeWhile Char.isDigit = digits :=
      takeWhile_append_eq each (by simp)
    simp only [List.append_assoc, List.cons_append, number, taken, List.drop_left,
      takeWhile_append_eq decimals stops]
  | integer each stops written => rw [number_of_no_point each stops, written]
  | tooLarge each stops written => rw [number_of_no_point each stops, written]

/-- Every number is read in one of these ways. -/
theorem number_read (first : Char) (rest : List Char) :
    NumberRead first rest (number first rest) := by
  obtain ⟨digits, behind, rfl, each, stops⟩ := exists_run Char.isDigit rest
  by_cases point : ∃ others, behind = '.' :: others
  · obtain ⟨others, rfl⟩ := point
    obtain ⟨fraction, behind, rfl, decimals, stops⟩ := exists_run Char.isDigit others
    have reads : NumberRead first (digits ++ '.' :: fraction ++ behind) _ :=
      .decimal each decimals stops
    rw [List.append_assoc, List.cons_append] at reads
    exact reads.eq ▸ reads
  · have stops : ∀ c ∈ behind.head?, c.isDigit = false ∧ c ≠ '.' := by
      refine fun c head => ⟨stops c head, ?_⟩
      rintro rfl
      obtain ⟨others, same⟩ := List.head?_eq_some_iff.mp head
      exact point ⟨others, same⟩
    rw [number_of_no_point each stops]
    cases written : Numeric.readWord (first :: digits) with
    | some value => exact .integer each stops written
    | none => exact .tooLarge each stops written

/-- A number literal ends before a newline. -/
theorem number_newline (first : Char) (rest more : List Char) :
    number first (rest ++ '\n' :: more) = number first rest := by
  -- A newline is no digit and no point, so it stops what the end of the text stops.
  have stops_newline {allowed : Char → Prop} {behind : List Char} (newline : allowed '\n')
      (stops : ∀ c ∈ behind.head?, allowed c) : ∀ c ∈ (behind ++ '\n' :: more).head?, allowed c := by
    cases behind with
    | nil => simpa using newline
    | cons c behind => simpa using stops
  have reads := number_read first rest
  generalize number first rest = read at reads ⊢
  refine NumberRead.eq ?_
  cases reads with
  | decimal each decimals stops =>
    rw [List.append_assoc]
    exact .decimal each decimals (stops_newline rfl stops)
  | integer each stops written =>
    rw [List.append_assoc]
    exact .integer each (stops_newline ⟨rfl, by decide⟩ stops) written
  | tooLarge each stops written =>
    rw [List.append_assoc]
    exact .tooLarge each (stops_newline ⟨rfl, by decide⟩ stops) written

/-- A word ends before a newline. -/
theorem word_newline (first : Char) (rest more : List Char) :
    word first (rest ++ '\n' :: more) = word first rest := by
  -- A newline is no part of an identifier.
  have same : (rest ++ '\n' :: more).takeWhile isIdentifierPart = rest.takeWhile isIdentifierPart :=
    takeWhile_append_stop rfl rest more
  simp only [word, same]

/-- A symbol ends before a newline. -/
theorem symbol_newline (first : Char) (rest more : List Char) :
    symbol first (rest ++ '\n' :: more) = symbol first rest := by
  -- No symbol is written with a newline.
  have plain : ∀ symbol : Symbol, '\n' ∉ symbol.spelling.toList := by
    intro symbol
    cases symbol <;> decide
  have same : Symbol.leading? (first :: (rest ++ '\n' :: more)) = Symbol.leading? (first :: rest) := by
    unfold Symbol.leading?
    congr 1
    funext symbol
    exact isPrefixOf_append_newline (plain symbol) (first :: rest) more
  simp only [symbol, same]

/-- A character that no other one is escaped by, and that is not the last one either, is plain. -/
theorem ne_escape {c : Char} {rest : List Char} (alone : c = '\\' → rest = [] → False)
    (escaped : ∀ d more, c = '\\' → rest = d :: more → False) : c ≠ '\\' := by
  intro escape
  cases rest with
  | nil => exact alone escape rfl
  | cons d rest => exact escaped d rest escape rfl

/-- A text literal goes on behind a plain character. -/
theorem textBody_plain {c : Char} (noEscape : c ≠ '\\') (noQuote : c ≠ '"') (rest : List Char) :
    textBody (c :: rest) = (textBody rest).map fun (body, width) => (c :: body, width + 1) :=
  textBody.eq_5 c rest (fun same => absurd same noEscape) (fun _ _ same => absurd same noEscape)
    noQuote

/-- A text literal that is closed is not changed by what comes behind it. -/
theorem textBody_append (rest more : List Char) :
    ∀ body width, textBody rest = some (body, width) →
      textBody (rest ++ more) = some (body, width) ∧ width ≤ rest.length := by
  -- The induction follows the literal, whose escaped characters come two at a time.
  induction rest using textBody.induct with
  | case1 => simp [textBody]
  | case2 => simp [textBody]
  | case3 c rest ih =>
    intro body width closed
    simp only [textBody, Option.map_eq_some_iff, Prod.exists, Prod.mk.injEq] at closed
    obtain ⟨inner, spelled, closed, rfl, rfl⟩ := closed
    obtain ⟨same, fits⟩ := ih inner spelled closed
    simp only [List.cons_append, textBody, same, Option.map_some, List.length_cons, true_and]
    omega
  | case4 rest =>
    intro body width closed
    simp only [textBody, Option.some.injEq, Prod.mk.injEq] at closed
    obtain ⟨rfl, rfl⟩ := closed
    simp [textBody]
  | case5 c rest alone escaped quote ih =>
    intro body width closed
    have noEscape := ne_escape alone escaped
    rw [textBody_plain noEscape quote] at closed
    simp only [Option.map_eq_some_iff, Prod.exists, Prod.mk.injEq] at closed
    obtain ⟨inner, spelled, closed, rfl, rfl⟩ := closed
    obtain ⟨same, fits⟩ := ih inner spelled closed
    rw [List.cons_append, textBody_plain noEscape quote, same]
    simp only [Option.map_some, List.length_cons, true_and]
    omega

/-- What is read before a newline, other than a fault, is read at the end of a text. -/
theorem read_newline {first : Char} {rest : List Char}
    (valid : ∀ cause, (read first rest).1 ≠ .fault cause) (more : List Char) :
    read first (rest ++ '\n' :: more) = read first rest := by
  -- Only a text literal could go on behind a newline, and one that is closed does not.
  have spaces : (rest ++ '\n' :: more).takeWhile isSpace = rest.takeWhile isSpace :=
    takeWhile_append_stop rfl rest more
  have comment : (rest ++ '\n' :: more).takeWhile (· ≠ '\n') = rest.takeWhile (· ≠ '\n') :=
    takeWhile_append_stop rfl rest more
  have literal (quote : read first rest = text rest) : text (rest ++ '\n' :: more) = text rest := by
    rw [quote] at valid
    unfold text at valid ⊢
    cases closed : textBody rest with
    | none => simp [closed] at valid
    | some parsed => rw [(textBody_append rest ('\n' :: more) _ _ closed).1]
  unfold read at literal ⊢
  split
  · exact number_newline first rest more
  · split
    · exact word_newline first rest more
    · split
      · rename_i digit alpha quote
        exact literal (by rw [if_neg digit, if_neg alpha, if_pos quote])
      · simp only [spaces, comment, symbol_newline]

/-- A number literal takes no more characters than there are. -/
theorem number_le (first : Char) (rest : List Char) : (number first rest).2 ≤ rest.length := by
  -- The digits, the point and the digits behind it are all there.
  have reads := number_read first rest
  generalize number first rest = read at reads ⊢
  cases reads <;> simp only [List.length_append, List.length_cons] <;> omega

/-- A symbol takes no more characters than there are. -/
theorem symbol_le (first : Char) (rest : List Char) : (symbol first rest).2 ≤ rest.length := by
  -- The text starts with all of the symbol.
  unfold symbol
  split
  · rename_i symbol found
    have starts := List.find?_some found
    have fits := (List.isPrefixOf_iff_prefix.mp starts).length_le
    rw [String.length_toList, List.length_cons] at fits
    exact Nat.sub_le_of_le_add fits
  · exact Nat.zero_le _

/-- A lexeme takes no more characters than there are. -/
theorem read_le (first : Char) (rest : List Char) : (read first rest).2 ≤ rest.length := by
  -- One case for each way to start a lexeme.
  have taken (stops : Char → Bool) : (rest.takeWhile stops).length ≤ rest.length :=
    (List.takeWhile_sublist _).length_le
  unfold read
  split
  · exact number_le first rest
  split
  · simp only [word]
    split <;> exact taken isIdentifierPart
  split
  · unfold text
    cases closed : textBody rest with
    | none => exact Nat.le_refl _
    | some parsed =>
      obtain ⟨body, width⟩ := parsed
      exact (textBody_append rest [] body width closed).2
  split
  · exact taken isSpace
  split
  · exact taken (· ≠ '\n')
  split
  · exact Nat.zero_le _
  · exact symbol_le first rest

/-- What holds of no characters, and of a lexeme before characters that it holds of, always holds. -/
theorem induction {motive : List Char → Prop} (empty : motive [])
    (lexeme : ∀ first rest, motive (rest.drop (read first rest).2) → motive (first :: rest)) :
    ∀ chars, motive chars
  | [] => empty
  | first :: rest => lexeme first rest (Lexeme.induction empty lexeme _)
termination_by chars => chars.length
decreasing_by
  rw [List.length_drop, List.length_cons]
  omega

end Lexeme

end Scriptlet
