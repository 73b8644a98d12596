import Scriptlet.Proofs.Token.Joint
import Scriptlet.Proofs.Token.Lookahead

/-!
Texts whose tokens are known piece by piece. What stands in front of other characters is cut alike
in front of all characters that start alike.
-/

namespace Scriptlet

/--
Characters in front of others that are cut into tokens of these kinds, with blanks and with comments
up to a newline between them.
-/
inductive Cut (behind : List Char) : List Char → List TokenKind → Prop where
  | nil : Cut behind [] []
  | token {first : Char} {slice chars : List Char} {kind : TokenKind} {kinds : List TokenKind}
    (reads : Lexeme.read first (slice ++ (chars ++ behind)) = (.token kind, slice.length))
    (more : Cut behind chars kinds) : Cut behind (first :: (slice ++ chars)) (kind :: kinds)
  | space {c : Char} {chars : List Char} {kinds : List TokenKind}
    (blank : Lexeme.isSpace c = true) (more : Cut behind chars kinds) :
    Cut behind (c :: chars) kinds
  | comment {line chars : List Char} {kinds : List TokenKind} (plain : '\n' ∉ line)
    (more : Cut behind ('\n' :: chars) kinds) :
    Cut behind ('#' :: (line ++ '\n' :: chars)) kinds

/-- Characters whose tokens are of these kinds, wherever they stand. -/
def HasKinds (chars : List Char) (kinds : List TokenKind) : Prop :=
  ∀ (source : Source) (place : Position), ∃ tokens,
    tokensFrom source place chars = .ok tokens ∧ tokens.map Token.kind = kinds

namespace Cut

variable {behind behind' chars first second : List Char} {kinds more rear : List TokenKind}

/-- A token of one character in front of others. -/
theorem single {c : Char} {kind : TokenKind}
    (reads : Lexeme.read c (chars ++ behind) = (.token kind, 0)) (more : Cut behind chars kinds) :
    Cut behind (c :: chars) (kind :: kinds) :=
  @token behind c [] chars kind kinds reads more

/-- Two texts in turn are cut in turn. -/
theorem append (front : Cut (second ++ behind) first kinds) (back : Cut behind second more) :
    Cut behind (first ++ second) (kinds ++ more) := by
  -- The induction goes along the pieces of the first text.
  induction front with
  | nil => exact back
  | @token c slice chars kind kinds reads _ ih =>
    rw [← List.append_assoc chars] at reads
    rw [List.cons_append, List.append_assoc]
    exact .token reads ih
  | space blank _ ih => exact .space blank ih
  | @comment line chars kinds plain _ ih =>
    rw [List.cons_append, List.append_assoc]
    exact .comment plain ih

/-- A text is cut alike in front of characters that its tokens end before alike. -/
theorem exchange (front : Cut behind chars kinds) (alike : Lexeme.EndsAlike behind behind') :
    Cut behind' chars kinds := by
  -- Each token is read again, as it ends alike before both texts.
  induction front with
  | nil => exact .nil
  | token reads _ ih => exact .token (Lexeme.read_endsAlike (alike.append _) reads) ih
  | space blank _ ih => exact .space blank ih
  | comment plain _ ih => exact .comment plain ih

end Cut

section Pieces

variable {source : Source} {place : Position} {first c : Char} {slice line rest : List Char}
  {kind : TokenKind}

/-- A token in front of others. -/
theorem tokensFrom_token
    (reads : Lexeme.read first (slice ++ rest) = (.token kind, slice.length)) :
    tokensFrom source place (first :: (slice ++ rest)) =
      (tokensFrom source (place.advanceBy (first :: slice)) rest).map
        (⟨kind, source, place, place.advanceBy (first :: slice)⟩ :: ·) := by
  rw [tokensFrom_cons]
  simp only [reads, Lexeme.stop, List.take_left, List.drop_left, Position.advanceBy_cons]

/-- What is read with a token in front is the token, and then what is read behind it. -/
theorem tokensFrom_token_eq_ok {tokens : List Token}
    (reads : Lexeme.read first (slice ++ rest) = (.token kind, slice.length))
    (cut : tokensFrom source place (first :: (slice ++ rest)) = .ok tokens) :
    ∃ others, tokensFrom source (place.advanceBy (first :: slice)) rest = .ok others ∧
      tokens = ⟨kind, source, place, place.advanceBy (first :: slice)⟩ :: others := by
  rw [tokensFrom_token reads] at cut
  generalize tokensFrom source (place.advanceBy (first :: slice)) rest = following at cut ⊢
  cases following with
  | error error => cases cut
  | ok others =>
    cases cut
    exact ⟨others, rfl, rfl⟩

/-- A blank is skipped, and so is each one behind it. -/
theorem tokensFrom_space (blank : Lexeme.isSpace c = true) :
    tokensFrom source place (c :: rest) = tokensFrom source (place.advance c) rest := by
  -- Blanks in a row are one lexeme, which is shorter by one behind the first.
  cases rest with
  | nil => simp only [tokensFrom_cons, Lexeme.stop, Lexeme.read_space blank, List.takeWhile_nil,
      List.length_nil, List.take_nil, List.drop_nil, Position.advanceBy_nil]
  | cons d rest =>
    by_cases more : Lexeme.isSpace d = true
    · simp only [tokensFrom_cons, Lexeme.stop, Lexeme.read_space blank, Lexeme.read_space more,
        List.takeWhile_cons, more, if_true, List.length_cons, List.take_succ_cons,
        List.drop_succ_cons, Position.advanceBy_cons]
    · rw [tokensFrom_cons source place c]
      simp only [Lexeme.stop, Lexeme.read_space blank, List.takeWhile_cons, if_neg more,
        List.length_nil, List.take_zero, List.drop_zero, Position.advanceBy_nil]

/-- A comment is skipped up to the newline or the end behind it. -/
theorem tokensFrom_comment (plain : '\n' ∉ line) (closed : ∀ c ∈ rest.head?, c = '\n') :
    tokensFrom source place ('#' :: (line ++ rest)) =
      tokensFrom source (place.advanceBy ('#' :: line)) rest := by
  -- The comment is all that stands before the newline.
  have taken : (line ++ rest).takeWhile (· ≠ '\n') = line :=
    takeWhile_append_eq (fun c member => by simpa using ne_of_mem_of_not_mem member plain)
      (by simpa using closed)
  have reads : Lexeme.read '#' (line ++ rest) = (.blank, line.length) := by
    show (Lexeme.blank, ((line ++ rest).takeWhile (· ≠ '\n')).length) = _
    rw [taken]
  rw [tokensFrom_cons]
  simp only [reads, Lexeme.stop, List.take_left, List.drop_left, Position.advanceBy_cons]

end Pieces

section Kinds

variable {source : Source} {place : Position} {behind chars line : List Char} {c : Char}
  {kinds rear : List TokenKind}

/-- The kinds of tokens that were read are those that the text has everywhere. -/
theorem hasKinds_of_tokensFrom {tokens : List Token}
    (cut : tokensFrom source place chars = .ok tokens) :
    HasKinds chars (tokens.map Token.kind) := by
  -- Nothing that decides on kinds depends on the place.
  intro source' place'
  have anywhere : Position.Steady fun _ _ => True := fun _ _ _ _ => trivial
  obtain ⟨tokens', cut', alike⟩ := tokensFrom_alike anywhere chars cut source' place' trivial
  refine ⟨tokens', cut', ?_⟩
  rw [← List.forall₂_eq_eq_eq, List.forall₂_map_left_iff, List.forall₂_map_right_iff]
  exact alike.imp fun _ _ => And.left

/-- The tokens of a text come before those of what is behind it. -/
theorem Cut.hasKinds (front : Cut behind chars kinds) (back : HasKinds behind rear) :
    HasKinds (chars ++ behind) (kinds ++ rear) := by
  intro source place
  -- The induction goes along the pieces, and carries the place that each one leads to.
  induction front generalizing place with
  | nil => exact back source place
  | @token first slice chars kind kinds reads _ ih =>
    obtain ⟨tokens, cut, same⟩ := ih (place.advanceBy (first :: slice))
    rw [List.cons_append, List.append_assoc, tokensFrom_token reads, cut]
    exact ⟨_, rfl, by rw [List.map_cons, same, List.cons_append]⟩
  | @space c chars kinds blank _ ih =>
    rw [List.cons_append, tokensFrom_space blank]
    exact ih _
  | @comment line chars kinds plain _ ih =>
    rw [List.cons_append, List.append_assoc, tokensFrom_comment plain (by simp)]
    exact ih _

end Kinds

end Scriptlet
