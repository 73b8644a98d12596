import Scriptlet.Proofs.Token.Joint
import Scriptlet.Proofs.Token.Place

/-!
The tokens of a source are a partition of it, with blanks and comments left out. The places of a
token are those that its characters have in the source.
-/

namespace Scriptlet

namespace Source

variable {source : Source} {before slice after : List Char}

/-- Reading characters leads to the place behind as many of them. -/
theorem index_start (chars : List Char) :
    (Position.start.advanceBy chars).index = chars.length := by
  rw [Position.index_advanceBy]
  exact Nat.zero_add _

/-- The place that characters at the start of a source lead to is a place of the source. -/
theorem has_start (text : source.text.toList = before ++ after) :
    source.Has (Position.start.advanceBy before) := by
  rw [Has, index_start, text, List.take_left, position_byteLength text]

/-- Between two places stand the characters that lead from one to the other. -/
theorem between_start (text : source.text.toList = before ++ (slice ++ after)) :
    source.between (Position.start.advanceBy before)
      (Position.start.advanceBy (before ++ slice)) = slice := by
  rw [between, index_start, index_start, text, ← List.append_assoc, List.take_left, List.drop_left]

/-- From a place on stands what is not before it. -/
theorem behind_start (text : source.text.toList = before ++ after) :
    source.behind (Position.start.advanceBy before) = after := by
  rw [behind, index_start, text, List.drop_left]

/-- What is left of the first characters, and what is behind them, is all that is left. -/
theorem drop_take_append {α : Type} {start middle : Nat} (order : start ≤ middle)
    (chars : List α) : (chars.take middle).drop start ++ chars.drop middle = chars.drop start := by
  have later : chars.drop middle = (chars.drop start).drop (middle - start) := by
    rw [List.drop_drop, Nat.add_sub_cancel' order]
  rw [List.drop_take, later, List.take_append_drop]

/-- What stands between places in a row stands between the first and the last of them. -/
theorem between_append {start middle stop : Position} (first : start.index ≤ middle.index)
    (second : middle.index ≤ stop.index) :
    source.between start middle ++ source.between middle stop = source.between start stop := by
  have front : source.text.toList.take middle.index =
      (source.text.toList.take stop.index).take middle.index := by
    rw [List.take_take, Nat.min_eq_left second]
  rw [between, between, between, front]
  exact drop_take_append first _

/-- From a place on stands what is before another place, and then what is behind that. -/
theorem between_behind {start stop : Position} (order : start.index ≤ stop.index) :
    source.between start stop ++ source.behind stop = source.behind start :=
  drop_take_append order _

/-- Nothing stands between a place and itself. -/
theorem Skips.refl (place : Position) : source.Skips place place := by
  refine ⟨Nat.le_refl _, ?_⟩
  rw [between, List.drop_eq_nil_of_le (List.length_take_le _ _)]
  exact .nil

variable {place stop finish : Position} {token : Token} {tokens : List Token}

/-- No token starts before the place from which a source is cut. -/
theorem Partition.start_le (partition : source.Partition place tokens finish) :
    ∀ token ∈ tokens, place.index ≤ token.span.start.index := by
  obtain ⟨munches, ordered, gaps⟩ := partition
  cases tokens with
  | nil => simp
  | cons first others =>
    obtain ⟨gap, _⟩ := List.forall₂_cons.mp gaps
    rw [List.forall_mem_cons]
    refine ⟨gap.1, fun token member => ?_⟩
    have inside := (munches first List.mem_cons_self).nonempty
    have behind := List.rel_of_pairwise_cons ordered member
    exact Nat.le_trans gap.1 (Nat.le_trans (Nat.le_of_lt inside) behind)

/-- A token in front of a partition of what is behind it makes a partition. -/
theorem Partition.cons (munches : source.Munches token)
    (partition : source.Partition token.span.stop tokens finish) :
    source.Partition token.span.start (token :: tokens) finish where
  munches := List.forall_mem_cons.mpr ⟨munches, partition.munches⟩
  ordered := List.pairwise_cons.mpr ⟨partition.start_le, partition.ordered⟩
  gaps := .cons (.refl _) partition.gaps

/-- What is skipped in front of a partition makes its first gap longer. -/
theorem Partition.skip (longer : ∀ next, source.Skips stop next → source.Skips place next)
    (partition : source.Partition stop tokens finish) : source.Partition place tokens finish where
  munches := partition.munches
  ordered := partition.ordered
  gaps := by
    have gaps := partition.gaps
    cases tokens with
    | nil | cons =>
      obtain ⟨gap, others⟩ := List.forall₂_cons.mp gaps
      exact .cons (longer _ gap) others

end Source

section Lexemes

variable {source : Source} {before rest : List Char} {first : Char}

/-- Behind a lexeme a source goes on with the characters that are not in it. -/
theorem split_lexeme (text : source.text.toList = before ++ first :: rest) :
    source.text.toList = before ++
      (first :: rest.take (Lexeme.read first rest).2 ++ rest.drop (Lexeme.read first rest).2) := by
  rw [text, List.cons_append, List.take_append_drop]

/-- The place behind a lexeme is where the characters up to its end lead to. -/
theorem Lexeme.stop_eq (before : List Char) (first : Char) (rest : List Char) :
    Lexeme.stop (Position.start.advanceBy before) first rest =
      Position.start.advanceBy (before ++ first :: rest.take (read first rest).2) := by
  rw [Position.advanceBy_append, Position.advanceBy_cons]
  rfl

/-- A lexeme that is a token is as long as the rules allow, and is read from its own characters. -/
theorem munches_lexeme (text : source.text.toList = before ++ first :: rest) {kind : TokenKind}
    (found : (Lexeme.read first rest).1 = .token kind) :
    source.Munches ⟨kind, source, Position.start.advanceBy before,
      Lexeme.stop (Position.start.advanceBy before) first rest⟩ := by
  have split := split_lexeme text
  have slice := Source.between_start split
  rw [← Lexeme.stop_eq] at slice
  refine ⟨rfl, Source.has_start text, ?_, ?_, ?_, ?_, ?_⟩
  · rw [Lexeme.stop_eq]
    rw [← List.append_assoc] at split
    exact Source.has_start split
  · show (Position.start.advanceBy before).index <
      (Lexeme.stop (Position.start.advanceBy before) first rest).index
    rw [Lexeme.stop_eq, Source.index_start, Source.index_start, List.length_append,
      List.length_cons]
    omega
  · simp only [slice]
    exact Lexeme.read_reads found
  · intro pattern longer fits starts
    simp only [slice, List.length_cons, List.length_take, Nat.min_eq_left (Lexeme.read_le _ _)]
    simp only [Source.behind_start text] at starts
    exact Lexeme.read_longest pattern fits starts
  · intro word spelled
    simp only [slice] at spelled
    have same := Lexeme.read_keyword spelled
    rw [found] at same
    cases same
    rfl

/-- A lexeme that is skipped makes the gap behind it longer. -/
theorem skips_lexeme (text : source.text.toList = before ++ first :: rest)
    (found : (Lexeme.read first rest).1 = .blank) {next : Position}
    (skips : source.Skips (Lexeme.stop (Position.start.advanceBy before) first rest) next) :
    source.Skips (Position.start.advanceBy before) next := by
  have split := split_lexeme text
  have slice := Source.between_start split
  rw [← Lexeme.stop_eq] at slice
  rw [← List.append_assoc] at split
  have left := Source.behind_start split
  rw [← Lexeme.stop_eq] at left
  have order : (Position.start.advanceBy before).index ≤
      (Lexeme.stop (Position.start.advanceBy before) first rest).index := by
    rw [Lexeme.stop_eq, Source.index_start, Source.index_start, List.length_append]
    exact Nat.le_add_right _ _
  refine ⟨Nat.le_trans order skips.1, ?_⟩
  rw [← Source.between_append order skips.1, slice]
  exact Lexeme.skipped_read found (left.symm.trans (Source.between_behind skips.1).symm) skips.2

end Lexemes

/-- What is left of a source from a place on is cut into a partition up to its end. -/
theorem tokensFrom_partition {source : Source} (chars : List Char) :
    ∀ {before : List Char} {tokens : List Token}, source.text.toList = before ++ chars →
      tokensFrom source (Position.start.advanceBy before) chars = .ok tokens →
        ∃ body, tokens = body ++ [⟨.endOfText, source,
            Position.start.advanceBy source.text.toList,
            Position.start.advanceBy source.text.toList⟩] ∧
          source.Partition (Position.start.advanceBy before) body
            (Position.start.advanceBy source.text.toList) := by
  -- The induction goes along the lexemes.
  induction chars using Lexeme.induction with
  | empty =>
    intro before tokens text cut
    rw [List.append_nil] at text
    rw [tokensFrom] at cut
    cases cut
    rw [text]
    exact ⟨[], rfl, by simp, .nil, .cons (.refl _) .nil⟩
  | lexeme first rest ih =>
    intro before tokens text cut
    have split := split_lexeme text
    rw [← List.append_assoc] at split
    obtain ⟨others, behind, parts⟩ := tokensFrom_cons_eq_ok cut
    rw [Lexeme.stop_eq] at behind
    obtain ⟨body, rfl, partition⟩ := ih split behind
    rw [← Lexeme.stop_eq] at partition
    rcases parts with ⟨blank, rfl⟩ | ⟨kind, found, rfl⟩
    · exact ⟨body, rfl, partition.skip fun _ => skips_lexeme text blank⟩
    · exact ⟨_ :: body, rfl, .cons (munches_lexeme text found) partition⟩

/--
The tokens of a source are a partition of it, cut as long as the rules allow, and behind them comes
the end of the text, at the end of the source and nowhere else.
-/
theorem Source.tokens_partition {source : Source} {tokens : List Token}
    (cut : source.tokens = .ok tokens) :
    ∃ body finish, tokens = body ++ [⟨.endOfText, source, finish, finish⟩] ∧
      finish = source.position source.text.utf8ByteSize ∧
      finish.index = source.text.toList.length ∧
      (∀ token ∈ body, token.kind ≠ .endOfText) ∧
      source.Partition .start body finish := by
  have text : source.text.toList = source.text.toList ++ [] := (List.append_nil _).symm
  obtain ⟨body, rfl, partition⟩ :=
    tokensFrom_partition source.text.toList (List.nil_append _).symm cut
  refine ⟨body, _, rfl, ?_, Source.index_start _, fun token member => ?_, partition⟩
  · rw [← byteLength_toList, Source.position_byteLength text]
  · obtain ⟨pattern, _, reads⟩ := (partition.munches token member).reading
    exact reads.ne_endOfText

/-- A word that starts with a reserved one, a comment, and a literal with a quote and a sharp. -/
def crowded : Source :=
  { name := "crowded", text := "VARx->12 # 1 == 2\n\"a\\\"#\" !=VAR" }

/-- The crowded text is cut into seven tokens, and none of them can be longer. -/
theorem Source.tokens_partition_crowded :
    ∃ tokens body finish, crowded.tokens = .ok tokens ∧
      tokens.map Token.kind = [.identifier "VARx", .symbol .arrow, .int 12, .newline,
        .text "a\"#", .symbol .notEqual, .keyword .varWord, .endOfText] ∧
      tokens = body ++ [⟨.endOfText, crowded, finish, finish⟩] ∧ finish = ⟨30, 1, 12⟩ ∧
      crowded.Partition .start body finish := by
  have kinds : crowded.tokens.toOption.map (List.map Token.kind) = some [.identifier "VARx",
      .symbol .arrow, .int 12, .newline, .text "a\"#", .symbol .notEqual, .keyword .varWord,
      .endOfText] := by
    decide +kernel
  cases cut : crowded.tokens with
  | error error => simp [cut, Except.toOption] at kinds
  | ok tokens =>
    obtain ⟨body, finish, split, ended, -, -, partition⟩ := tokens_partition cut
    refine ⟨tokens, body, finish, rfl, ?_, split, ended.trans (by decide +kernel), partition⟩
    simpa [cut, Except.toOption] using kinds

end Scriptlet
