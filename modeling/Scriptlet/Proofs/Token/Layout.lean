import Scriptlet.Proofs.Token.Cut

/-!
The layout of a text: the blanks and comments outside of its tokens, and how newlines are written.
Whoever edits the layout repeats newlines at most, and changes no other token.
-/

namespace Scriptlet

/-- A place of a text that is inside none of these tokens. -/
def Outside (tokens : List Token) (index : Nat) : Prop :=
  ∀ token ∈ tokens, index ≤ token.span.start.index ∨ token.span.stop.index ≤ index

instance (tokens : List Token) (index : Nat) : Decidable (Outside tokens index) :=
  inferInstanceAs (Decidable (∀ token ∈ tokens, _ ∨ _))

/-- One of these tokens is a newline that starts at a place. -/
def NewlineAt (tokens : List Token) (index : Nat) : Prop :=
  ∃ token ∈ tokens, token.kind = .newline ∧ token.span.start.index = index

instance (tokens : List Token) (index : Nat) : Decidable (NewlineAt tokens index) :=
  inferInstanceAs (Decidable (∃ token ∈ tokens, _ ∧ _))

/-- How the layout of a text of these tokens is edited once, and how often that doubles a newline. -/
inductive Edit (text : List Char) (tokens : List Token) : Nat → List Char → Prop where
  | blanks {before blanks behind : List Char} (split : text = before ++ behind)
    (outside : Outside tokens before.length) (each : ∀ c ∈ blanks, Lexeme.isSpace c = true) :
    Edit text tokens 0 (before ++ (blanks ++ behind))
  | comment {before line behind : List Char} (split : text = before ++ behind)
    (plain : '\n' ∉ line)
    (ended : behind = [] ∨ behind.head? = some '\n' ∧ NewlineAt tokens before.length) :
    Edit text tokens 0 (before ++ ('#' :: line ++ behind))
  | separator {before behind : List Char} (split : text = before ++ ';' :: behind)
    (newline : NewlineAt tokens before.length) : Edit text tokens 0 (before ++ '\n' :: behind)
  | double {before behind : List Char} {c : Char} (split : text = before ++ c :: behind)
    (newline : NewlineAt tokens before.length) :
    Edit text tokens 1 (before ++ c :: c :: behind)

/-- A source whose layout is edited time and again, and how often that doubles a newline. -/
inductive Source.Relaid : Source → Nat → Source → Prop where
  | refl (source : Source) : Source.Relaid source 0 source
  | edit {source middle edited : Source} {tokens : List Token} {once more : Nat}
    (cut : source.tokens = .ok tokens) (one : Edit source.text.toList tokens once middle.text.toList)
    (others : Source.Relaid middle more edited) : Source.Relaid source (once + more) edited

/-- Kinds of tokens among which newlines are doubled so often. -/
inductive Doubled : Nat → List TokenKind → List TokenKind → Prop where
  | refl (kinds : List TokenKind) : Doubled 0 kinds kinds
  | step {count : Nat} {front rear kinds : List TokenKind}
    (others : Doubled count (front ++ .newline :: .newline :: rear) kinds) :
    Doubled (1 + count) (front ++ .newline :: rear) kinds

/-- Doubling newlines and then doubling more of them. -/
theorem Doubled.trans {once more : Nat} {first middle last : List TokenKind}
    (one : Doubled once first middle) (others : Doubled more middle last) :
    Doubled (once + more) first last := by
  -- The induction goes along the first steps.
  induction one with
  | refl kinds => rwa [Nat.zero_add]
  | step _ ih =>
    rw [Nat.add_assoc]
    exact .step (ih others)

/-- The characters that newlines are written as. -/
theorem read_newline_iff {first : Char} {rest : List Char}
    (found : (Lexeme.read first rest).1 = .token .newline) :
    (first = '\n' ∨ first = ';') ∧ ∀ more, Lexeme.read first more = (.token .newline, 0) := by
  -- Of all patterns only that of newlines reads one.
  obtain ⟨pattern, fits, reads⟩ := Lexeme.read_reads found
  cases pattern with
  | newline =>
    rcases fits with written | written <;> obtain ⟨rfl, -⟩ := List.cons.inj written
    · exact ⟨.inl rfl, fun _ => rfl⟩
    · exact ⟨.inr rfl, fun _ => rfl⟩
  | float =>
    obtain ⟨_, _, -, same⟩ := reads
    cases same
  | int =>
    obtain ⟨_, -, same⟩ := reads
    cases same
  | text | identifier | keyword | symbol => cases reads
  | openText | exclamation | comment | space => exact absurd reads id

/--
How a text is cut at a place outside of its tokens: between pieces of it, or inside of a comment.
All that was read before starts before the place.
-/
inductive CutAt (source : Source) (place : Position) (before behind : List Char)
    (tokens : List Token) : Prop where
  | between {fore rear : List Token} (split : tokens = fore ++ rear)
    (front : Cut behind before (fore.map Token.kind))
    (earlier : ∀ token ∈ fore, token.span.start.index < place.index + before.length)
    (back : tokensFrom source (place.advanceBy before) behind = .ok rear)
  | inside {start line rest later : List Char} {fore rear : List Token}
    (opened : before = start ++ '#' :: line) (left : behind = rest ++ later)
    (plain : '\n' ∉ line ++ rest) (closed : ∀ c ∈ later.head?, c = '\n')
    (split : tokens = fore ++ rear) (front : Cut ('#' :: (line ++ behind)) start (fore.map Token.kind))
    (earlier : ∀ token ∈ fore, token.span.start.index < place.index + before.length)
    (back : tokensFrom source (place.advanceBy (before ++ rest)) later = .ok rear)

section Places

variable {source : Source} {place : Position} {before behind : List Char}
  {others tokens : List Token}

/-- A piece in front of what is cut at a place. -/
theorem CutAt.prepend (piece : List Char) (read : List Token) {chars : List Char}
    (front : Cut (chars ++ behind) piece (read.map Token.kind))
    (earlier : ∀ token ∈ read, token.span.start.index < place.index + piece.length)
    (more : CutAt source (place.advanceBy piece) chars behind others) :
    CutAt source place (piece ++ chars) behind (read ++ others) := by
  have both (fore : List Token) (later : ∀ token ∈ fore, token.span.start.index <
      (place.advanceBy piece).index + chars.length) :
      ∀ token ∈ read ++ fore, token.span.start.index < place.index + (piece ++ chars).length := by
    intro token member
    rw [List.length_append, ← Nat.add_assoc]
    rcases List.mem_append.mp member with first | second
    · exact Nat.lt_add_right _ (earlier token first)
    · rw [← Position.index_advanceBy]
      exact later token second
  -- The piece comes before the part that is cut off in front, in either case.
  cases more with
  | between split inner later back =>
    subst split
    rw [← Position.advanceBy_append] at back
    refine .between (List.append_assoc ..).symm ?_ (both _ later) back
    rw [List.map_append]
    exact front.append inner
  | inside opened left plain closed split inner later back =>
    subst split opened
    rw [← Position.advanceBy_append, ← List.append_assoc] at back
    refine .inside (List.append_assoc ..).symm left plain closed (List.append_assoc ..).symm ?_
      (both _ later) back
    rw [List.append_assoc, List.cons_append] at front
    rw [List.map_append]
    exact front.append inner

/-- A token that starts before a place outside of it ends before the place, too. -/
theorem exists_slice {first : Char} {front : List Char} {kind : TokenKind}
    (cut : tokensFrom source place (first :: (front ++ behind)) = .ok tokens)
    (outside : Outside tokens (place.index + (first :: front).length))
    (found : (Lexeme.read first (front ++ behind)).1 = .token kind) :
    ∃ slice chars, front = slice ++ chars ∧
      Lexeme.read first (slice ++ (chars ++ behind)) = (.token kind, slice.length) := by
  obtain ⟨others, -, ⟨blank, -⟩ | ⟨kind', found', rfl⟩⟩ := tokensFrom_cons_eq_ok cut
  · rw [blank] at found
    cases found
  have fits := Lexeme.read_le first (front ++ behind)
  -- If the token reached beyond the place, that would be inside of it.
  have ends : (Lexeme.read first (front ++ behind)).2 ≤ front.length := by
    have apart := outside _ List.mem_cons_self
    simp only [Lexeme.stop, Position.index_advanceBy, ← Position.advanceBy_cons, List.length_cons,
      List.length_take, Nat.min_eq_left fits] at apart
    omega
  refine ⟨front.take (Lexeme.read first (front ++ behind)).2,
    front.drop (Lexeme.read first (front ++ behind)).2, (List.take_append_drop ..).symm, ?_⟩
  rw [← List.append_assoc, List.take_append_drop, List.length_take, Nat.min_eq_left ends, ← found]

/-- A text that starts with a comment is cut at a place in the comment, or just behind it. -/
theorem cutAt_of_comment {line : List Char} (plain : '\n' ∉ line)
    (cut : tokensFrom source place ('#' :: (line ++ behind)) = .ok tokens) :
    CutAt source place ('#' :: line) behind tokens := by
  have closed : ∀ c ∈ (behind.dropWhile (· ≠ '\n')).head?, c = '\n' :=
    fun c head => by simpa using stops_dropWhile _ _ c head
  have both : '\n' ∉ line ++ behind.takeWhile (· ≠ '\n') := by
    rw [List.mem_append, not_or]
    exact ⟨plain, fun member => by simpa using List.mem_takeWhile_imp member⟩
  have left : behind = behind.takeWhile (· ≠ '\n') ++ behind.dropWhile (· ≠ '\n') :=
    List.takeWhile_append_dropWhile.symm
  rw [left, ← List.append_assoc, tokensFrom_comment both closed] at cut
  -- Nothing comes before the comment.
  have earlier : ∀ token ∈ ([] : List Token),
      token.span.start.index < place.index + ('#' :: line).length := nofun
  exact @CutAt.inside _ _ _ _ _ [] _ _ _ [] _ rfl left both closed rfl .nil earlier cut

/-- A text is cut at every place that is outside of its tokens. -/
theorem cutAt_of_outside (before : List Char) :
    ∀ {place : Position} {tokens : List Token},
      tokensFrom source place (before ++ behind) = .ok tokens →
        Outside tokens (place.index + before.length) →
          CutAt source place before behind tokens := by
  -- The induction goes along the pieces before the place.
  induction sized : before.length using Nat.strongRecOn generalizing before with
  | ind size ih =>
    subst sized
    intro place tokens cut outside
    have further (piece chars : List Char) (others : List Token) (split : before = piece ++ chars)
        (some : piece ≠ []) (cut : tokensFrom source (place.advanceBy piece) (chars ++ behind) =
          .ok others) (each : ∀ token ∈ others, token ∈ tokens) :
        CutAt source (place.advanceBy piece) chars behind others := by
      have longer := List.length_pos_iff.mpr some
      have sizes : before.length = piece.length + chars.length := by
        rw [split, List.length_append]
      refine ih chars.length (by omega) chars rfl cut fun token member => ?_
      rw [Position.index_advanceBy, Nat.add_assoc, ← sizes]
      exact outside token (each token member)
    cases before with
    | nil => exact @CutAt.between _ _ _ _ _ [] _ rfl .nil nofun cut
    | cons first front =>
      rw [List.cons_append] at cut
      cases found : (Lexeme.read first (front ++ behind)).1 with
      | fault cause => simp [tokensFrom_cons, found] at cut
      | token kind =>
        obtain ⟨slice, chars, rfl, reads⟩ := exists_slice cut outside found
        rw [List.append_assoc] at cut
        obtain ⟨others, rest, rfl⟩ := tokensFrom_token_eq_ok reads cut
        refine CutAt.prepend (first :: slice) [_] ?_ (by simp)
          (further _ chars others rfl (by simp) rest fun _ => List.mem_cons_of_mem _)
        rw [← List.append_nil slice]
        exact .token reads .nil
      | blank =>
        rcases Lexeme.starts_blank found with blank | rfl
        · rw [tokensFrom_space blank] at cut
          exact CutAt.prepend [first] [] (.space blank .nil) (by simp)
            (further _ front tokens rfl (by simp) cut fun _ => id)
        · by_cases newline : '\n' ∈ front
          · obtain ⟨line, chars, rfl, plain⟩ := List.eq_append_cons_of_mem newline
            rw [List.append_assoc, List.cons_append, tokensFrom_comment plain (by simp)] at cut
            have newline : Lexeme.read '\n' ([] ++ (chars ++ behind)) =
              (.token .newline, ([] : List Char).length) := rfl
            obtain ⟨others, rest, rfl⟩ := tokensFrom_token_eq_ok newline cut
            rw [← Position.advanceBy_append] at rest
            have split : '#' :: (line ++ '\n' :: chars) = '#' :: (line ++ ['\n']) ++ chars := by simp
            rw [split]
            refine CutAt.prepend _ [_] (.comment plain ?_) ?_
              (further _ chars others split (by simp) rest fun _ => List.mem_cons_of_mem _)
            · exact .single rfl .nil
            · rw [List.forall_mem_singleton, Position.index_advanceBy, ← List.cons_append,
                List.length_append]
              exact Nat.lt_succ_self _
          · exact cutAt_of_comment newline cut

end Places

section Edits

variable {source : Source} {place : Position} {before behind added : List Char} {c : Char}
  {tokens : List Token} {kinds : List TokenKind}

/-- Blanks in front of a text do not change its tokens. -/
theorem HasKinds.blanks {blanks : List Char} (each : ∀ c ∈ blanks, Lexeme.isSpace c = true)
    (has : HasKinds behind kinds) : HasKinds (blanks ++ behind) kinds := by
  -- The blanks are skipped one by one.
  induction blanks with
  | nil => exact has
  | cons c blanks ih =>
    rw [List.forall_mem_cons] at each
    intro source place
    rw [List.cons_append, tokensFrom_space each.1]
    exact ih each.2 source _

/-- Nor does a comment that ends with its line. -/
theorem HasKinds.comment {line : List Char} (plain : '\n' ∉ line)
    (closed : ∀ c ∈ behind.head?, c = '\n') (has : HasKinds behind kinds) :
    HasKinds ('#' :: (line ++ behind)) kinds := by
  intro source place
  rw [tokensFrom_comment plain closed]
  exact has source _

/-- Newlines in front of a text are so many tokens. -/
theorem HasKinds.newlines {news : List Char} (each : ∀ c ∈ news, c = '\n' ∨ c = ';')
    (has : HasKinds behind kinds) :
    HasKinds (news ++ behind) (List.replicate news.length .newline ++ kinds) := by
  -- Each of the newlines is a token of one character.
  induction news with
  | nil => exact has
  | cons c news ih =>
    rw [List.forall_mem_cons] at each
    have one : Cut (news ++ behind) [c] [.newline] := by
      refine .single ?_ .nil
      rcases each.1 with rfl | rfl <;> rfl
    exact one.hasKinds (ih each.2)

/-- What is skipped where it stands may stand outside of the tokens of a text. -/
theorem CutAt.insert (cutAt : CutAt source place before behind tokens)
    (alike : Lexeme.EndsAlike behind (added ++ behind)) (plain : '\n' ∉ added)
    (skipped : ∀ kinds, HasKinds behind kinds → HasKinds (added ++ behind) kinds) :
    HasKinds (before ++ (added ++ behind)) (tokens.map Token.kind) := by
  cases cutAt with
  | between split front _ back =>
    rw [split, List.map_append]
    exact (front.exchange alike).hasKinds (skipped _ (hasKinds_of_tokensFrom back))
  | @inside start line rest later fore rear opened left plain' closed split front _ back =>
    -- In a comment it is a part of the comment.
    subst opened left
    have both : '\n' ∉ line ++ (added ++ rest) := by
      simp only [List.mem_append, not_or] at plain' ⊢
      exact ⟨plain'.1, plain, plain'.2⟩
    have comment := (hasKinds_of_tokensFrom back).comment both closed
    have exchanged : Cut ('#' :: (line ++ (added ++ rest) ++ later)) start
        (fore.map Token.kind) := front.exchange fun _ head => .inr head
    have whole := exchanged.hasKinds comment
    rw [split, List.map_append]
    simpa only [List.append_assoc, List.cons_append] using whole

/-- No token starts before the place from which a text is cut. -/
theorem start_le_of_tokensFrom (chars : List Char) :
    ∀ {place : Position} {tokens : List Token}, tokensFrom source place chars = .ok tokens →
      ∀ token ∈ tokens, place.index ≤ token.span.start.index := by
  -- The induction goes along the lexemes.
  induction chars using Lexeme.induction with
  | empty =>
    intro place tokens cut
    rw [tokensFrom] at cut
    cases cut
    simp
  | lexeme first rest ih =>
    intro place tokens cut
    obtain ⟨others, behind, parts⟩ := tokensFrom_cons_eq_ok cut
    have later : ∀ token ∈ others, place.index ≤ token.span.start.index := by
      intro token member
      refine Nat.le_trans ?_ (ih behind token member)
      rw [Lexeme.stop, ← Position.advanceBy_cons, Position.index_advanceBy]
      exact Nat.le_add_right _ _
    rcases parts with ⟨-, rfl⟩ | ⟨kind, -, rfl⟩
    · exact later
    · exact List.forall_mem_cons.mpr ⟨Nat.le_refl _, later⟩

/-- A newline that starts a text is written there, and is one character. -/
theorem newline_of_tokensFrom (cut : tokensFrom source place (c :: behind) = .ok tokens)
    (newline : NewlineAt tokens place.index) :
    (c = '\n' ∨ c = ';') ∧ ∃ others, tokens.map Token.kind = .newline :: others ∧
      HasKinds behind others := by
  obtain ⟨token, member, same, starts⟩ := newline
  obtain ⟨others, rest, parts⟩ := tokensFrom_cons_eq_ok cut
  -- All further tokens start behind the first character.
  have later : token ∉ others := by
    intro inside
    have order := start_le_of_tokensFrom _ rest token inside
    rw [Lexeme.stop, ← Position.advanceBy_cons, Position.index_advanceBy, List.length_cons] at order
    omega
  rcases parts with ⟨-, rfl⟩ | ⟨kind, found, rfl⟩
  · exact absurd member later
  · rcases List.mem_cons.mp member with rfl | inside
    · subst same
      obtain ⟨written, width⟩ := read_newline_iff found
      rw [width] at rest
      exact ⟨written, _, rfl, hasKinds_of_tokensFrom rest⟩
    · exact absurd inside later

/-- Where a newline is written there may be others, in the place of it, if a comment ends alike. -/
theorem CutAt.newlines (cutAt : CutAt source place before (c :: behind) tokens)
    (newline : NewlineAt tokens (place.index + before.length)) :
    (c = '\n' ∨ c = ';') ∧ ∃ front rear, tokens.map Token.kind = front ++ .newline :: rear ∧
      ∀ first news, (first = '\n' ∨ c = ';' ∧ first = ';') → (∀ d ∈ news, d = '\n' ∨ d = ';') →
        HasKinds (before ++ (first :: news ++ behind))
          (front ++ (List.replicate (news.length + 1) .newline ++ rear)) := by
  -- The newline starts at the place, and no token in front of it does.
  have behindFore {fore rear : List Token} (split : tokens = fore ++ rear)
      (earlier : ∀ token ∈ fore, token.span.start.index < place.index + before.length) :
      NewlineAt rear (place.index + before.length) := by
    obtain ⟨token, member, same, starts⟩ := newline
    rw [split, List.mem_append] at member
    rcases member with first | second
    · exact absurd starts (Nat.ne_of_lt (earlier token first))
    · exact ⟨token, second, same, starts⟩
  cases cutAt with
  | between split front earlier back =>
    have newline' := behindFore split earlier
    rw [← Position.index_advanceBy] at newline'
    obtain ⟨written, others, same, has⟩ := newline_of_tokensFrom back newline'
    refine ⟨written, _, others, by rw [split, List.map_append, same], ?_⟩
    intro first news start each
    have all : ∀ d ∈ first :: news, d = '\n' ∨ d = ';' :=
      List.forall_mem_cons.mpr ⟨start.imp_right And.right, each⟩
    refine (front.exchange fun d head => .inl ?_).hasKinds (has.newlines all)
    obtain rfl : first = d := Option.some.inj head
    rcases start with rfl | ⟨-, rfl⟩ <;> decide
  | @inside start line rest later fore rear opened left plain closed split front earlier back =>
    -- Just behind a comment only a newline is one.
    obtain ⟨token, member, same, starts⟩ := behindFore split earlier
    have order := start_le_of_tokensFrom _ back token member
    rw [Position.index_advanceBy, List.length_append] at order
    obtain rfl : rest = [] := List.length_eq_zero_iff.mp (by omega)
    rw [List.nil_append] at left
    subst left opened
    obtain rfl : c = '\n' := closed c rfl
    rw [List.append_nil] at back plain
    have newline' : NewlineAt rear (place.advanceBy (start ++ '#' :: line)).index := by
      rw [Position.index_advanceBy]
      exact ⟨token, member, same, starts⟩
    obtain ⟨written, others, same, has⟩ := newline_of_tokensFrom back newline'
    refine ⟨written, _, others, by rw [split, List.map_append, same], ?_⟩
    intro first news begins each
    obtain rfl : first = '\n' := begins.elim id fun other => absurd other.1 (by decide)
    have all : ∀ d ∈ '\n' :: news, d = '\n' ∨ d = ';' :=
      List.forall_mem_cons.mpr ⟨.inl rfl, each⟩
    have comment := (has.newlines all).comment plain (by simp)
    have exchanged : Cut ('#' :: (line ++ ('\n' :: news ++ behind))) start
        (fore.map Token.kind) := front.exchange fun _ head => .inr head
    have whole := exchanged.hasKinds comment
    simpa only [List.append_assoc, List.cons_append, List.length_cons] using whole

end Edits

section Sources

variable {source : Source} {place : Position} {tokens : List Token}

/-- A place where a token starts is inside of none. -/
theorem outside_of_start (chars : List Char) :
    ∀ {place : Position} {tokens : List Token}, tokensFrom source place chars = .ok tokens →
      ∀ token ∈ tokens, Outside tokens token.span.start.index := by
  -- The induction goes along the lexemes.
  induction chars using Lexeme.induction with
  | empty =>
    intro place tokens cut
    rw [tokensFrom] at cut
    cases cut
    simp [Outside]
  | lexeme first rest ih =>
    intro place tokens cut
    obtain ⟨others, behind, ⟨-, rfl⟩ | ⟨kind, -, rfl⟩⟩ := tokensFrom_cons_eq_ok cut
    · exact ih behind
    · have later := start_le_of_tokensFrom _ behind
      have order : place.index ≤ (Lexeme.stop place first rest).index := by
        rw [Lexeme.stop, ← Position.advanceBy_cons, Position.index_advanceBy]
        exact Nat.le_add_right _ _
      rw [List.forall_mem_cons]
      refine ⟨List.forall_mem_cons.mpr ⟨.inl (Nat.le_refl _), fun token member => ?_⟩,
        fun token member => List.forall_mem_cons.mpr ⟨.inr (later token member),
          ih behind token member⟩⟩
      exact .inl (Nat.le_trans order (later token member))

/-- The last token starts where the text ends. -/
theorem exists_end (chars : List Char) :
    ∀ {place : Position} {tokens : List Token}, tokensFrom source place chars = .ok tokens →
      ∃ token ∈ tokens, token.span.start.index = place.index + chars.length := by
  -- The induction goes along the lexemes.
  induction chars using Lexeme.induction with
  | empty =>
    intro place tokens cut
    rw [tokensFrom] at cut
    cases cut
    exact ⟨_, List.mem_singleton_self _, rfl⟩
  | lexeme first rest ih =>
    intro place tokens cut
    obtain ⟨others, behind, parts⟩ := tokensFrom_cons_eq_ok cut
    obtain ⟨token, member, starts⟩ := ih behind
    rw [← Position.index_advanceBy, Lexeme.advanceBy_stop, Position.index_advanceBy] at starts
    rcases parts with ⟨-, rfl⟩ | ⟨kind, -, rfl⟩
    · exact ⟨token, member, starts⟩
    · exact ⟨token, List.mem_cons_of_mem _ member, starts⟩

/-- A source is cut at every place outside of its tokens. -/
theorem Source.cutAt {before behind : List Char} (cut : source.tokens = .ok tokens)
    (split : source.text.toList = before ++ behind) (outside : Outside tokens before.length) :
    CutAt source .start before behind tokens := by
  rw [Source.tokens, split] at cut
  refine cutAt_of_outside before cut ?_
  rwa [show Position.start.index = 0 from rfl, Nat.zero_add]

/-- An edit of the layout leaves the tokens as they are, but for newlines that it doubles. -/
theorem Edit.hasKinds {edited : List Char} {count : Nat} (cut : source.tokens = .ok tokens)
    (edit : Edit source.text.toList tokens count edited) :
    ∃ kinds, HasKinds edited kinds ∧ Doubled count (tokens.map Token.kind) kinds := by
  have start : Position.start.index = 0 := rfl
  have outside {index : Nat} (newline : NewlineAt tokens index) : Outside tokens index := by
    obtain ⟨token, member, -, rfl⟩ := newline
    exact outside_of_start _ cut token member
  have at_start {index : Nat} (newline : NewlineAt tokens index) :
      NewlineAt tokens (Position.start.index + index) := by
    rwa [start, Nat.zero_add]
  -- One case for each kind of edit; all happen at places that are inside of no token.
  cases edit with
  | blanks split outside each =>
    rename_i before blanks behind
    refine ⟨_, (source.cutAt cut split outside).insert (fun c head => ?_) (fun member => ?_)
      fun kinds has => has.blanks each, .refl _⟩
    · cases blanks with
      | nil => exact .inr head
      | cons d blanks =>
        obtain rfl : d = c := Option.some.inj head
        have blank := each d List.mem_cons_self
        simp only [Lexeme.isSpace, Bool.or_eq_true, beq_iff_eq] at blank
        rcases blank with ((rfl | rfl) | rfl) | rfl <;> exact .inl (by decide)
    · exact absurd (each _ member) (by decide)
  | @comment before line behind split plain ended =>
    have place : Outside tokens before.length := by
      rcases ended with rfl | ⟨-, newline⟩
      · obtain ⟨token, member, starts⟩ := exists_end _ cut
        rw [split, List.append_nil, start, Nat.zero_add] at starts
        exact starts ▸ outside_of_start _ cut token member
      · exact outside newline
    have closed : ∀ c ∈ behind.head?, c = '\n' := by
      rcases ended with rfl | ⟨head, -⟩
      · simp
      · simp [head]
    refine ⟨_, (source.cutAt cut split place).insert (fun c head => ?_) ?_
      fun kinds has => has.comment plain closed, .refl _⟩
    · obtain rfl : '#' = c := Option.some.inj head
      exact .inl (by decide)
    · simpa using plain
  | @separator before behind split newline =>
    obtain ⟨-, front, rear, kinds, written⟩ :=
      (source.cutAt cut split (outside newline)).newlines (at_start newline)
    have has := written '\n' [] (.inl rfl) (by simp)
    rw [List.singleton_append] at has
    exact ⟨_, has, by rw [kinds]; exact .refl _⟩
  | @double before behind c split newline =>
    obtain ⟨either, front, rear, kinds, written⟩ :=
      (source.cutAt cut split (outside newline)).newlines (at_start newline)
    have has := written c [c] (either.imp_right fun same => ⟨same, same⟩) (by simpa using either)
    exact ⟨_, has, by rw [kinds]; exact .step (.refl _)⟩

/-- However the layout of a source is edited, only newlines are doubled in what it is cut into. -/
theorem Source.Relaid.doubled {edited : Source} {count : Nat} (relaid : source.Relaid count edited)
    (cut : source.tokens = .ok tokens) :
    ∃ tokens', edited.tokens = .ok tokens' ∧
      Doubled count (tokens.map Token.kind) (tokens'.map Token.kind) := by
  -- The induction goes along the edits.
  induction relaid generalizing tokens with
  | refl source => exact ⟨tokens, cut, .refl _⟩
  | @edit source middle edited before once more cut' one _ ih =>
    rw [cut] at cut'
    cases cut'
    obtain ⟨kinds, has, doubled⟩ := one.hasKinds cut
    obtain ⟨between, cut'', rfl⟩ := has middle .start
    obtain ⟨tokens', last, doubled'⟩ := ih cut''
    exact ⟨tokens', last, doubled.trans doubled'⟩

end Sources

end Scriptlet
