import Scriptlet.Proofs.Token.Cut
import Scriptlet.Proofs.Token.Partition

/-!
Text literals and the texts that they stand for. Every text can be written as a literal in as many
ways as its characters can be spelled, and every literal is one of these.
-/

namespace Scriptlet

/-- How a character is written in a text literal; a quote or an escape must be escaped itself. -/
inductive LiteralChar : Char → List Char → Prop where
  | plain {c : Char} (noQuote : c ≠ '"') (noEscape : c ≠ '\\') : LiteralChar c [c]
  | escaped {c : Char} (noLine : c ≠ 'n') (noTab : c ≠ 't') : LiteralChar c ['\\', c]
  | line : LiteralChar '\n' ['\\', 'n']
  | tab : LiteralChar '\t' ['\\', 't']

/-- How characters are written between the quotes of a text literal, one behind the other. -/
inductive LiteralText : List Char → List Char → Prop where
  | nil : LiteralText [] []
  | cons {c : Char} {chars slice body : List Char} (one : LiteralChar c slice)
    (others : LiteralText chars body) : LiteralText (c :: chars) (slice ++ body)

/-- The tokens that are read from characters at a place on, whether or not a fault follows them. -/
inductive LexedFrom (source : Source) : Position → List Char → Token → Prop where
  | here {place : Position} {first : Char} {rest : List Char} {kind : TokenKind}
    (found : (Lexeme.read first rest).1 = .token kind) :
    LexedFrom source place (first :: rest)
      ⟨kind, source, place, Lexeme.stop place first rest⟩
  | behind {place : Position} {first : Char} {rest : List Char} {token : Token}
    (sound : ∀ cause, (Lexeme.read first rest).1 ≠ .fault cause)
    (later : LexedFrom source (Lexeme.stop place first rest)
      (rest.drop (Lexeme.read first rest).2) token) : LexedFrom source place (first :: rest) token

namespace Source

/-- The tokens that are read from a source, up to its end or to its first fault. -/
def Lexes (source : Source) (token : Token) : Prop :=
  LexedFrom source .start source.text.toList token

end Source

/-- The tokens of a text are read from it, all but its end. -/
theorem lexedFrom_of_mem {source : Source} (chars : List Char) :
    ∀ {place : Position} {tokens : List Token}, tokensFrom source place chars = .ok tokens →
      ∀ token ∈ tokens, token.kind ≠ .endOfText → LexedFrom source place chars token := by
  -- The induction goes along the lexemes.
  induction chars using Lexeme.induction with
  | empty =>
    intro place tokens cut token member inner
    rw [tokensFrom] at cut
    cases cut
    obtain rfl := List.mem_singleton.mp member
    exact absurd rfl inner
  | lexeme first rest ih =>
    intro place tokens cut token member inner
    obtain ⟨others, left, ⟨blank, rfl⟩ | ⟨kind, found, rfl⟩⟩ := tokensFrom_cons_eq_ok cut
    · exact .behind (by simp [blank]) (ih left token member inner)
    · rcases List.mem_cons.mp member with rfl | later
      · exact .here found
      · exact .behind (by simp [found]) (ih left token later inner)

/-- The tokens of a source are read from it. -/
theorem Source.lexes_of_mem {source : Source} {tokens : List Token} {token : Token}
    (cut : source.tokens = .ok tokens) (member : token ∈ tokens) (inner : token.kind ≠ .endOfText) :
    source.Lexes token :=
  lexedFrom_of_mem _ cut token member inner

/-- Every token that is read from a source is cut as long as the rules allow. -/
theorem LexedFrom.munches {source : Source} {place : Position} {chars : List Char} {token : Token}
    (lexed : LexedFrom source place chars token) :
    ∀ {before : List Char}, source.text.toList = before ++ chars →
      place = Position.start.advanceBy before → source.Munches token := by
  -- The induction goes along the lexemes, and carries what stands before each of them.
  induction lexed with
  | here found =>
    rintro before text rfl
    exact munches_lexeme text found
  | @behind place first rest token _ _ ih =>
    rintro before text rfl
    have split := split_lexeme text
    rw [← List.append_assoc] at split
    exact ih split (Lexeme.stop_eq before first rest)

/-- An escaped character is one way to write the character that it stands for. -/
theorem LiteralChar.unescape (c : Char) : LiteralChar (Lexeme.unescape c) ['\\', c] := by
  unfold Lexeme.unescape
  split
  · exact .line
  · exact .tab
  · rename_i noLine noTab
    exact .escaped noLine noTab

namespace LiteralText

variable {chars body : List Char}

/-- What is written between the quotes is read as the characters that it stands for. -/
theorem textBody (written : LiteralText chars body) (more : List Char) :
    Lexeme.textBody (body ++ '"' :: more) = some (chars, body.length + 1) := by
  -- The induction goes along the characters of the text.
  induction written with
  | nil => rfl
  | @cons c chars slice body one _ ih =>
    cases one with
    | plain noQuote noEscape =>
      rw [List.singleton_append, List.cons_append, Lexeme.textBody_plain noEscape noQuote, ih]
      rfl
    | escaped noLine noTab =>
      have itself : Lexeme.unescape c = c := Lexeme.unescape.eq_3 c noLine noTab
      simp only [List.cons_append, List.nil_append, Lexeme.textBody, ih, Option.map_some, itself,
        List.length_cons]
    | line | tab =>
      simp only [List.cons_append, List.nil_append, Lexeme.textBody, ih, Option.map_some,
        Lexeme.unescape, List.length_cons]

/-- A text literal before any other characters is read as the token of its text. -/
theorem read (written : LiteralText chars body) (more : List Char) :
    Lexeme.read '"' (body ++ '"' :: more) =
      (.token (.text (String.ofList chars)), body.length + 1) := by
  show Lexeme.text (body ++ '"' :: more) = _
  rw [Lexeme.text, written.textBody more]

/-- Whatever stands between the quotes of a literal is written for the text that it stands for. -/
theorem of_literalBody (inside : body ∈ literalBody) : LiteralText (resolve body) body := by
  -- The induction goes along the parts of the body, each of which is one character of the text.
  obtain ⟨parts, rfl, each⟩ := Language.mem_kstar.mp inside
  clear inside
  induction parts with
  | nil => exact .nil
  | cons part parts ih =>
    rw [List.forall_mem_cons] at each
    rw [List.flatten_cons]
    rcases (Language.mem_add _ _ _).mp each.1 with ⟨c, plain, rfl⟩ | escaped
    · obtain ⟨noQuote, noEscape⟩ : c ≠ '"' ∧ c ≠ '\\' := by simpa using plain
      rw [List.singleton_append, resolve.eq_4 c _ (fun same => absurd same noEscape)
        fun _ _ same => absurd same noEscape]
      exact .cons (.plain noQuote noEscape) (ih each.2)
    · obtain ⟨_, rfl, _, ⟨c, _, rfl⟩, rfl⟩ := Language.mem_mul.mp escaped
      exact .cons (.unescape c) (ih each.2)

end LiteralText

/-- A token of a text is cut from one of the literals of that text. -/
theorem Source.Munches.literal {source : Source} {token : Token} {value : String}
    (munches : source.Munches token) (kind : token.kind = .text value) :
    ∃ body, LiteralText value.toList body ∧
      source.between token.span.start token.span.stop = '"' :: (body ++ ['"']) := by
  obtain ⟨pattern, fits, reads⟩ := munches.reading
  rw [kind] at reads
  -- No other rule makes a text of its slice.
  cases pattern <;> simp only [Pattern.Reads, reduceCtorEq, and_false, exists_false] at reads
  obtain ⟨body, inside, slice⟩ := mem_text.mp fits
  rw [slice, List.tail_cons, List.dropLast_concat, TokenKind.text.injEq] at reads
  refine ⟨body, ?_, slice⟩
  rw [reads, String.toList_ofList]
  exact .of_literalBody inside

/--
Every text can be written as a literal. Whatever comes behind it, the first token that is read from
it is the token of that text, and reaches from the opening to the closing quote. And every token of
a text that is read from a source, up to its end or to its first fault, is cut from such a literal.
-/
theorem text_literals (value : String) :
    (∀ body, LiteralText value.toList body → ∀ (source : Source) (place : Position) more,
      Lexeme.read '"' (body ++ '"' :: more) = (.token (.text value), body.length + 1) ∧
      tokensFrom source place ('"' :: (body ++ '"' :: more)) =
        (tokensFrom source (place.advanceBy ('"' :: (body ++ ['"']))) more).map
          (⟨.text value, source, place, place.advanceBy ('"' :: (body ++ ['"']))⟩ :: ·)) ∧
    ∀ (source : Source) (token : Token), source.Lexes token → token.kind = .text value →
      ∃ body, LiteralText value.toList body ∧
        source.between token.span.start token.span.stop = '"' :: (body ++ ['"']) := by
  refine ⟨fun body written source place more => ?_, fun source token lexed kind => ?_⟩
  · have reads := written.read more
    rw [String.ofList_toList] at reads
    refine ⟨reads, ?_⟩
    have closed : body ++ '"' :: more = (body ++ ['"']) ++ more := by
      rw [List.append_assoc, List.singleton_append]
    rw [closed] at reads ⊢
    refine tokensFrom_token (reads.trans ?_)
    rw [List.length_append, List.length_singleton]
  · exact (LexedFrom.munches lexed (List.nil_append _).symm rfl).literal kind

/-- A literal with escapes of all kinds, and a character behind it that no token starts with. -/
def escaping : Source :=
  { name := "escaping", text := "\"\\q\\\"\\\\\\n\\\tn\"@" }

/-- The literal is read although a fault follows it, and its escapes are resolved. -/
theorem text_literals_escaping :
    ∃ body token, LiteralText "q\"\\\n\tn".toList body ∧
      escaping.text.toList = '"' :: (body ++ '"' :: ['@']) ∧
      Lexeme.read '"' (body ++ '"' :: ['@']) = (.token (.text "q\"\\\n\tn"), 12) ∧
      escaping.Lexes token ∧ token.kind = .text "q\"\\\n\tn" ∧
      ∃ literal, LiteralText "q\"\\\n\tn".toList literal ∧
        escaping.between token.span.start token.span.stop = '"' :: (literal ++ ['"']) := by
  obtain ⟨writes, written⟩ := text_literals "q\"\\\n\tn"
  have body : LiteralText "q\"\\\n\tn".toList
      (['\\', 'q'] ++ (['\\', '"'] ++ (['\\', '\\'] ++ (['\\', 'n'] ++ (['\\', '\t'] ++
        (['n'] ++ [])))))) :=
    .cons (.escaped (by decide) (by decide)) <| .cons (.escaped (by decide) (by decide)) <|
      .cons (.escaped (by decide) (by decide)) <| .cons .line <|
      .cons (.escaped (by decide) (by decide)) <| .cons (.plain (by decide) (by decide)) .nil
  obtain ⟨reads, -⟩ := writes _ body escaping .start ['@']
  have lexed : escaping.Lexes _ := .here (congrArg Prod.fst reads)
  exact ⟨_, _, body, rfl, reads, lexed, rfl, written escaping _ lexed rfl⟩

end Scriptlet
