import Scriptlet.Proofs.Syntax.FirstFault
import Scriptlet.Proofs.Token.Munch

/-!
Texts that are joined by a newline. No lexeme of the first one reaches beyond the newline, so the
tokens are those of both texts, at places that have moved for the second one.
-/

namespace Scriptlet

/-- Related places that stay related when the same character is read from both on. -/
def Position.Steady (places : Position → Position → Prop) : Prop :=
  ∀ place place' c, places place place' → places (place.advance c) (place'.advance c)

/-- Related places stay related when the same characters are read. -/
theorem Position.Steady.advanceBy {places : Position → Position → Prop}
    (steady : Position.Steady places) {place place' : Position} (related : places place place')
    (chars : List Char) : places (place.advanceBy chars) (place'.advanceBy chars) := by
  -- The induction goes along the characters.
  induction chars generalizing place place' with
  | nil => exact related
  | cons c chars ih =>
    rw [Position.advanceBy_cons, Position.advanceBy_cons]
    exact ih (steady place place' c related)

/-- A place of a text that starts at some place of another one, as a place of that other text. -/
structure Position.Behind (joint place place' : Position) : Prop where
  index : place.index = joint.index + place'.index
  line : place.line = joint.line + place'.line
  column : place.column = place'.column

/-- A text that starts in the first column of another one goes on beside it. -/
theorem Position.steady_behind (joint : Position) : Position.Steady joint.Behind := by
  -- A newline leads to the first column on both sides.
  rintro place place' c ⟨index, line, column⟩
  unfold Position.advance
  split
  · constructor
    · show place.index + 1 = joint.index + (place'.index + 1)
      omega
    · show place.line + 1 = joint.line + (place'.line + 1)
      omega
    · rfl
  · constructor
    · show place.index + 1 = joint.index + (place'.index + 1)
      omega
    · exact line
    · show place.column + 1 = place'.column + 1
      omega

/-- Ranges of two sources whose ends are at related places. -/
structure Span.Corresponds (source source' : Source) (places : Position → Position → Prop)
    (span span' : Span) : Prop where
  source : span.source = source
  source' : span'.source = source'
  start : places span.start span'.start
  stop : places span.stop span'.stop

/-- Corresponding ranges go through to corresponding ranges. -/
theorem Span.corresponds_respectsThrough (source source' : Source)
    (places : Position → Position → Prop) :
    Span.RespectsThrough (Span.Corresponds source source' places) := by
  -- The start is that of the first range, and the stop that of the last.
  intro first first' last last' firsts lasts
  exact ⟨firsts.source, firsts.source', firsts.start, lasts.stop⟩

/-- The place behind a lexeme. -/
def Lexeme.stop (place : Position) (first : Char) (rest : List Char) : Position :=
  (place.advance first).advanceBy (rest.take (read first rest).2)

/-- Lexemes that start at related places stop at related places. -/
theorem Position.Steady.lexeme {places : Position → Position → Prop}
    (steady : Position.Steady places) {place place' : Position} (related : places place place')
    (first : Char) (rest : List Char) :
    places (Lexeme.stop place first rest) (Lexeme.stop place' first rest) :=
  steady.advanceBy (steady place place' first related) _

/-- Behind a lexeme only the characters after it are left to read. -/
theorem Lexeme.advanceBy_stop (place : Position) (first : Char) (rest : List Char) :
    (stop place first rest).advanceBy (rest.drop (read first rest).2) =
      place.advanceBy (first :: rest) := by
  unfold stop
  rw [← Position.advanceBy_append, List.take_append_drop, Position.advanceBy_cons]

/-- The tokens of a text that starts with a lexeme. -/
theorem tokensFrom_cons (source : Source) (place : Position) (first : Char) (rest : List Char) :
    tokensFrom source place (first :: rest) =
      match (Lexeme.read first rest).1 with
      | .token kind =>
        (tokensFrom source (Lexeme.stop place first rest)
          (rest.drop (Lexeme.read first rest).2)).map
            (⟨kind, source, place, Lexeme.stop place first rest⟩ :: ·)
      | .blank =>
        tokensFrom source (Lexeme.stop place first rest) (rest.drop (Lexeme.read first rest).2)
      | .fault cause => .error ⟨cause, source, place, Lexeme.stop place first rest⟩ := by
  -- Taking the lexeme and its width apart is all that is left to do.
  rw [tokensFrom]
  unfold Lexeme.stop
  generalize Lexeme.read first rest = lexeme
  obtain ⟨lexeme, width⟩ := lexeme
  rfl

/-- A text that starts with a lexeme and has tokens: they are those behind it, or one more. -/
theorem tokensFrom_cons_eq_ok {source : Source} {place : Position} {first : Char}
    {rest : List Char} {tokens : List Token}
    (cut : tokensFrom source place (first :: rest) = .ok tokens) :
    ∃ others, tokensFrom source (Lexeme.stop place first rest)
        (rest.drop (Lexeme.read first rest).2) = .ok others ∧
      ((Lexeme.read first rest).1 = .blank ∧ tokens = others ∨
        ∃ kind, (Lexeme.read first rest).1 = .token kind ∧
          tokens = ⟨kind, source, place, Lexeme.stop place first rest⟩ :: others) := by
  -- Only a lexeme that is no fault goes on.
  rw [tokensFrom_cons] at cut
  generalize (Lexeme.read first rest).1 = lexeme at cut ⊢
  cases lexeme with
  | fault cause => cases cut
  | blank => exact ⟨tokens, cut, .inl ⟨rfl, rfl⟩⟩
  | token kind =>
    simp only at cut
    generalize tokensFrom source _ (rest.drop _) = following at cut ⊢
    cases following with
    | error error => cases cut
    | ok others =>
      cases cut
      exact ⟨others, rfl, .inr ⟨kind, rfl, rfl⟩⟩

/-- A text has the same tokens in another source, at related places. -/
theorem tokensFrom_alike {places : Position → Position → Prop} (steady : Position.Steady places)
    {source : Source} (chars : List Char) :
    ∀ {place : Position} {tokens : List Token}, tokensFrom source place chars = .ok tokens →
      ∀ source' place', places place' place → ∃ tokens',
        tokensFrom source' place' chars = .ok tokens' ∧
          TokensAlike (Span.Corresponds source' source places) tokens' tokens := by
  -- The induction goes along the lexemes.
  induction chars using Lexeme.induction with
  | empty =>
    intro place tokens cut source' place' related
    rw [tokensFrom] at cut
    cases cut
    refine ⟨[⟨.endOfText, source', place', place'⟩], by rw [tokensFrom], .cons ⟨rfl, ?_⟩ .nil⟩
    exact ⟨rfl, rfl, related, related⟩
  | lexeme first rest ih =>
    intro place tokens cut source' place' related
    have stops := steady.lexeme related first rest
    obtain ⟨others, behind, ⟨blank, rfl⟩ | ⟨kind, found, rfl⟩⟩ := tokensFrom_cons_eq_ok cut
    · obtain ⟨others', behind', alike⟩ := ih behind source' _ stops
      refine ⟨others', ?_, alike⟩
      simp only [tokensFrom_cons, blank]
      exact behind'
    · obtain ⟨others', behind', alike⟩ := ih behind source' _ stops
      refine ⟨⟨kind, source', place', Lexeme.stop place' first rest⟩ :: others', ?_, ?_⟩
      · simp only [tokensFrom_cons, found, behind']
        rfl
      · exact .cons ⟨rfl, rfl, rfl, related, stops⟩ alike

/-- The tokens of a text end with its end, and none of the others is one. -/
theorem tokensFrom_endsOnce {source : Source} (chars : List Char) :
    ∀ {place : Position} {tokens : List Token}, tokensFrom source place chars = .ok tokens →
      EndsOnce tokens := by
  -- The induction goes along the lexemes.
  induction chars using Lexeme.induction with
  | empty =>
    intro place tokens cut
    rw [tokensFrom] at cut
    cases cut
    exact ⟨[], _, rfl, .nil, rfl⟩
  | lexeme first rest ih =>
    intro place tokens cut
    obtain ⟨others, behind, ⟨blank, rfl⟩ | ⟨kind, found, rfl⟩⟩ := tokensFrom_cons_eq_ok cut
    · exact ih behind
    · obtain ⟨body, last, rfl, noEnd, ended⟩ := ih behind
      have other : kind ≠ .endOfText := by
        rintro rfl
        exact Lexeme.read_ne_endOfText first rest found
      exact ⟨⟨kind, _⟩ :: body, last, rfl, noEnd.cons other, ended⟩

/-- A text that a newline joins to another one has its own tokens, and then those of the other. -/
theorem tokensFrom_joined {source : Source} (joint : Source) {more : List Char}
    {others : List Token} (chars : List Char) :
    ∀ {place : Position} {tokens : List Token}, tokensFrom source place chars = .ok tokens →
      tokensFrom joint ((place.advanceBy chars).advance '\n') more = .ok others →
      ∃ front line ended,
        tokensFrom joint place (chars ++ '\n' :: more) = .ok (front ++ line :: others) ∧
          line.kind = .newline ∧ NoEnd front ∧
          TokensAlike (Span.Corresponds joint source (· = ·)) (front ++ [ended]) tokens := by
  -- The induction goes along the lexemes of the first text.
  induction chars using Lexeme.induction with
  | empty =>
    intro place tokens cut behind
    rw [tokensFrom] at cut
    cases cut
    have found : (Lexeme.read '\n' more).1 = .token .newline := rfl
    have width : (Lexeme.read '\n' more).2 = 0 := rfl
    have stop : Lexeme.stop place '\n' more = place.advance '\n' := rfl
    refine ⟨[], ⟨.newline, joint, place, place.advance '\n'⟩, ⟨.endOfText, joint, place, place⟩,
      ?_, rfl, .nil, .cons ⟨rfl, rfl, rfl, rfl, rfl⟩ .nil⟩
    rw [Position.advanceBy_nil] at behind
    simp only [List.nil_append, tokensFrom_cons, found, width, stop, List.drop_zero, behind]
    rfl
  | lexeme first rest ih =>
    intro place tokens cut behind
    obtain ⟨following, rest', parts⟩ := tokensFrom_cons_eq_ok cut
    -- The first lexeme is read in the same way before the newline.
    have valid : ∀ cause, (Lexeme.read first rest).1 ≠ .fault cause := by
      rcases parts with ⟨blank, _⟩ | ⟨kind, found, _⟩
      · simp [blank]
      · simp [found]
    have read := Lexeme.read_newline valid more
    have within := Lexeme.read_le first rest
    have left : (rest ++ '\n' :: more).drop (Lexeme.read first rest).2 =
        rest.drop (Lexeme.read first rest).2 ++ '\n' :: more :=
      List.drop_append_of_le_length within
    have stop : Lexeme.stop place first (rest ++ '\n' :: more) = Lexeme.stop place first rest := by
      unfold Lexeme.stop
      rw [read, List.take_append_of_le_length within]
    rw [← Lexeme.advanceBy_stop] at behind
    obtain ⟨front, line, ended, joined, newline, noEnd, alike⟩ := ih rest' behind
    rcases parts with ⟨blank, rfl⟩ | ⟨kind, found, rfl⟩
    · refine ⟨front, line, ended, ?_, newline, noEnd, alike⟩
      simp only [List.cons_append, tokensFrom_cons, read, blank, stop, left]
      exact joined
    · have other : kind ≠ .endOfText := by
        rintro rfl
        exact Lexeme.read_ne_endOfText first rest found
      refine ⟨⟨kind, joint, place, Lexeme.stop place first rest⟩ :: front, line, ended, ?_,
        newline, noEnd.cons other, .cons ⟨rfl, rfl, rfl, rfl, rfl⟩ alike⟩
      simp only [List.cons_append, tokensFrom_cons, read, found, stop, left, joined]
      rfl

end Scriptlet
