import Scriptlet.Proofs.Token.Munch

/-!
How far lexemes look. Behind a token only the next character matters, and only if some token could
go on with it.
-/

namespace Scriptlet

/-- A run that is as long as a slice is the slice, and ends behind it. -/
theorem takeWhile_of_length {inside : Char → Bool} {slice more : List Char}
    (width : ((slice ++ more).takeWhile inside).length = slice.length) :
    (∀ c ∈ slice, inside c = true) ∧ ∀ c ∈ more.head?, inside c = false := by
  have same : (slice ++ more).takeWhile inside = slice := by
    rw [List.prefix_iff_eq_take.mp (List.takeWhile_prefix inside), width, List.take_left]
  have behind := drop_takeWhile inside (slice ++ more)
  rw [same, List.drop_left] at behind
  refine ⟨fun c member => List.mem_takeWhile_imp (same ▸ member), fun c head => ?_⟩
  exact stops_dropWhile inside (slice ++ more) c (behind ▸ head)

namespace Lexeme

/-- The characters that a token may go on with, unless it is a text literal. -/
def joins (c : Char) : Bool :=
  isIdentifierPart c || c == '.' || c == '=' || c == '>'

/--
Tokens that end before some characters end before others too: no token goes on with the first of
these, or they start like the former.
-/
def EndsAlike (more behind : List Char) : Prop :=
  ∀ c ∈ behind.head?, joins c = false ∨ more.head? = some c

/-- Identifiers go on with digits. -/
theorem isIdentifierPart_of_isDigit {c : Char} (digit : c.isDigit = true) :
    isIdentifierPart c = true := by
  simp [isIdentifierPart, Char.isAlphanum, digit]

/-- Some tokens go on with digits. -/
theorem joins_of_isDigit {c : Char} (digit : c.isDigit = true) : joins c = true := by
  simp [joins, isIdentifierPart_of_isDigit digit]

section Exchange

variable {first : Char} {slice more behind : List Char} {kind : TokenKind}

/-- What tokens go on with does not start the one text if it does not start the other. -/
theorem EndsAlike.stops (alike : EndsAlike more behind) {inside : Char → Bool}
    (joined : ∀ c, inside c = true → joins c = true) (stops : ∀ c ∈ more.head?, inside c = false) :
    ∀ c ∈ behind.head?, inside c = false := by
  intro c head
  rcases alike c head with apart | same
  · by_contra within
    rw [joined c (by simpa using within)] at apart
    cases apart
  · exact stops c same

/-- The same characters in front of both texts are their start. -/
theorem EndsAlike.append (alike : EndsAlike more behind) (front : List Char) :
    EndsAlike (front ++ more) (front ++ behind) := by
  -- Only the first character matters, and a front has one of its own.
  cases front with
  | nil => exact alike
  | cons c front => exact fun d head => .inr head

/-- A number ends before other characters if it ends before some. -/
theorem number_endsAlike (alike : EndsAlike more behind)
    (found : number first (slice ++ more) = (.token kind, slice.length)) :
    number first (slice ++ behind) = (.token kind, slice.length) := by
  have reads := number_read first (slice ++ more)
  rw [found] at reads
  generalize whole : slice ++ more = rest, read : (Lexeme.token kind, slice.length) = lexeme
    at reads ⊢
  cases reads with
  | @decimal digits fraction others each decimals stops =>
    -- The slice is digits, the point, and all the digits behind it.
    obtain ⟨rfl, rfl⟩ := List.append_inj whole (by
      rw [(Prod.mk.inj read).2, List.length_append, List.length_cons]
      omega)
    exact (NumberRead.decimal each decimals (alike.stops (fun _ => joins_of_isDigit) stops)).eq
  | @integer digits others value each stops written =>
    -- The slice is all the digits, and no point is behind them.
    obtain ⟨rfl, rfl⟩ := List.append_inj whole (Prod.mk.inj read).2
    have ends := alike.stops (fun _ => joins_of_isDigit) fun c head => (stops c head).1
    have noPoint : ∀ c ∈ behind.head?, (c == '.') = false :=
      alike.stops (by simp [joins]) fun c head => by simpa using (stops c head).2
    exact (NumberRead.integer each (fun c head => ⟨ends c head, by simpa using noPoint c head⟩)
      written).eq
  | tooLarge => cases (Prod.mk.inj read).1

/-- A word ends before other characters if it ends before some. -/
theorem word_endsAlike (alike : EndsAlike more behind)
    (found : word first (slice ++ more) = (.token kind, slice.length)) :
    word first (slice ++ behind) = (.token kind, slice.length) := by
  -- A word is a whole run of identifier characters, in both texts the same one.
  have width := congrArg Prod.snd found
  rw [word_width] at width
  obtain ⟨each, stops⟩ := takeWhile_of_length width
  have stops' := alike.stops (by simp +contextual [joins]) stops
  simp only [word, takeWhile_append_eq each stops] at found
  simp only [word, takeWhile_append_eq each stops']
  exact found

/-- A text literal is read from its own characters. -/
theorem textBody_take (rest : List Char) : ∀ body width,
    textBody rest = some (body, width) → textBody (rest.take width) = some (body, width) := by
  -- The induction follows the literal, whose escaped characters come two at a time.
  induction rest using textBody.induct with
  | case1 => simp [textBody]
  | case2 => simp [textBody]
  | case3 c rest ih =>
    intro body width closed
    obtain ⟨⟨inner, spelled⟩, behind, same⟩ := Option.map_eq_some_iff.mp closed
    cases same
    rw [List.take_succ_cons, List.take_succ_cons, textBody, ih inner spelled behind]
    rfl
  | case4 rest =>
    intro body width closed
    cases closed
    rfl
  | case5 c rest alone escaped quote ih =>
    intro body width closed
    have noEscape := ne_escape alone escaped
    rw [textBody_plain noEscape quote] at closed
    obtain ⟨⟨inner, spelled⟩, behind, same⟩ := Option.map_eq_some_iff.mp closed
    cases same
    rw [List.take_succ_cons, textBody_plain noEscape quote, ih inner spelled behind]
    rfl

/-- A text literal ends before any other characters if it ends before some. -/
theorem text_exchange (found : text (slice ++ more) = (.token kind, slice.length)) :
    text (slice ++ behind) = (.token kind, slice.length) := by
  -- A literal is closed by its own quote, so what follows does not matter.
  unfold text at found ⊢
  cases closed : textBody (slice ++ more) with
  | none => simp [closed] at found
  | some parsed =>
    obtain ⟨body, width⟩ := parsed
    rw [closed] at found
    cases found
    have own := textBody_take _ _ _ closed
    rw [List.take_left] at own
    rw [(textBody_append slice behind _ _ own).1]

/-- A symbol that starts a longer one lacks one character of it, which tokens go on with. -/
theorem exists_joins_of_prefix : ∀ sign longer : Symbol,
    sign.spelling.toList <+: longer.spelling.toList →
      longer = sign ∨ ∃ c, longer.spelling.toList = sign.spelling.toList ++ [c] ∧
        joins c = true := by
  -- There are only so many pairs of symbols.
  have each : ∀ sign ∈ Symbol.all, ∀ longer ∈ Symbol.all,
      sign.spelling.toList <+: longer.spelling.toList →
        longer = sign ∨ longer.spelling.toList = sign.spelling.toList ++ ['='] ∨
          longer.spelling.toList = sign.spelling.toList ++ ['>'] := by
    decide
  intro sign longer starts
  rcases each sign (Symbol.mem_all _) longer (Symbol.mem_all _) starts with same | equal | greater
  · exact .inl same
  · exact .inr ⟨_, equal, by decide⟩
  · exact .inr ⟨_, greater, by decide⟩

/-- A symbol ends before other characters if it ends before some. -/
theorem symbol_endsAlike (alike : EndsAlike more behind)
    (found : symbol first (slice ++ more) = (.token kind, slice.length)) :
    symbol first (slice ++ behind) = (.token kind, slice.length) := by
  unfold symbol at found ⊢
  cases leading : Symbol.leading? (first :: (slice ++ more)) with
  | none => simp [leading] at found
  | some sign =>
    rw [leading] at found
    obtain ⟨kindSame, width⟩ := Prod.mk.inj found
    cases kindSame
    have suits := List.find?_some leading
    have starts := List.isPrefixOf_iff_prefix.mp suits
    have some : 0 < sign.spelling.length := by cases sign <;> decide
    -- The longest symbol that leads the first text is the slice itself.
    have own : sign.spelling.toList = first :: slice := by
      rw [List.prefix_iff_eq_take.mp starts, String.length_toList,
        ← Nat.sub_add_cancel (show 1 ≤ sign.spelling.length from some), List.take_succ_cons, width,
        List.take_left]
    have stays : sign.spelling.toList <+: first :: (slice ++ behind) := by
      rw [own]
      exact List.prefix_append (first :: slice) behind
    obtain ⟨longer, leading', shorter⟩ := spelling_le_leading stays
    have suits' := List.find?_some leading'
    have starts' := List.isPrefixOf_iff_prefix.mp suits'
    rw [← String.length_toList, ← String.length_toList] at shorter
    have within := List.prefix_of_prefix_length_le stays starts' shorter
    rcases exists_joins_of_prefix sign longer within with rfl | ⟨c, extended, joined⟩
    · rw [leading']
      exact congrArg _ width
    · -- A longer symbol in front of the other characters would be there before the first ones.
      rw [extended, own] at starts'
      obtain ⟨others, rfl⟩ : [c] <+: behind :=
        (List.prefix_append_right_inj (first :: slice)).mp starts'
      rcases alike c rfl with apart | same
      · rw [joined] at apart
        cases apart
      · obtain ⟨others', rfl⟩ := List.head?_eq_some_iff.mp same
        have present : longer.spelling.toList <+: first :: (slice ++ c :: others') := by
          rw [extended, own]
          exact (List.prefix_append_right_inj (first :: slice)).mpr ⟨others', rfl⟩
        obtain ⟨most, leading'', longest⟩ := spelling_le_leading present
        rw [leading] at leading''
        cases leading''
        have lengths := congrArg List.length extended
        rw [List.length_append, String.length_toList, String.length_toList,
          List.length_singleton] at lengths
        omega

/-- A token ends before other characters if it ends before some. -/
theorem read_endsAlike (alike : EndsAlike more behind)
    (found : read first (slice ++ more) = (.token kind, slice.length)) :
    read first (slice ++ behind) = (.token kind, slice.length) := by
  -- One case for each way to start a lexeme; neither blanks nor comments are tokens.
  unfold read at found ⊢
  split
  · rename_i digit
    rw [if_pos digit] at found
    exact number_endsAlike alike found
  rename_i digit
  rw [if_neg digit] at found
  split
  · rename_i alpha
    rw [if_pos alpha] at found
    exact word_endsAlike alike found
  rename_i alpha
  rw [if_neg alpha] at found
  split
  · rename_i quote
    rw [if_pos quote] at found
    exact text_exchange found
  rename_i quote
  rw [if_neg quote] at found
  split
  · rename_i blank
    rw [if_pos blank] at found
    cases (Prod.mk.inj found).1
  rename_i blank
  rw [if_neg blank] at found
  split
  · rename_i sharp
    rw [if_pos sharp] at found
    cases (Prod.mk.inj found).1
  rename_i sharp
  rw [if_neg sharp] at found
  split
  · rename_i line
    rw [if_pos line] at found
    exact found
  · rename_i line
    rw [if_neg line] at found
    exact symbol_endsAlike alike found

end Exchange

end Lexeme

end Scriptlet
