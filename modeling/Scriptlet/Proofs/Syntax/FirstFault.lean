import Scriptlet.Proofs.Syntax.Guidance

/-!
A syntax error lies at the first token with which the text can no longer be continued, and does not
depend on what comes behind it.
-/

namespace Scriptlet

/-- The last token is the end of the text, and no other one is. -/
def EndsOnce (tokens : List Token) : Prop :=
  ∃ body stop, tokens = body ++ [stop] ∧ NoEnd body ∧ stop.kind = .endOfText

/-- What no end of the text was read from is not all that there is. -/
theorem EndsOnce.rest_ne {tokens read rest : List Token} (ends : EndsOnce tokens)
    (same : tokens = read ++ rest) (noEnd : NoEnd read) : rest ≠ [] := by
  -- The end of the text would have been read.
  rintro rfl
  obtain ⟨body, stop, split, _, kind⟩ := ends
  rw [List.append_nil] at same
  have member : stop ∈ read := by
    rw [← same, split]
    simp
  exact noEnd stop member kind

/-- An end of the text behind what holds none is the only one. -/
theorem EndsOnce.of_noEnd {tokens : List Token} (noEnd : NoEnd tokens) :
    EndsOnce (tokens ++ [⟨.endOfText, default⟩]) :=
  ⟨tokens, _, rfl, noEnd, rfl⟩

/-- What is read before the end of the text holds no other end of it. -/
theorem noEnd_of_reads {read : List Token} {program : Node}
    (reads : Grammar.full.statements.Reads read program TokenKind.Closes) : NoEnd read := by
  -- The rule says so about what it reads from these tokens.
  have stop : nextKind [⟨.endOfText, default⟩] = .endOfText := rfl
  have parsed := reads [⟨.endOfText, default⟩] (stop ▸ by decide)
  obtain ⟨taken, same, noEnd, _⟩ := (Grammar.full_guided _).statements.ok
    (read ++ [⟨.endOfText, default⟩]) _ _ (Nat.lt_succ_self _) parsed
  obtain rfl := List.append_cancel_right same
  exact noEnd

/-- Statements before the end of the text are a program. -/
theorem parse_of_reads {read : List Token} {program : Node}
    (reads : Grammar.full.statements.Reads read program TokenKind.Closes) :
    parse (read ++ [⟨.endOfText, default⟩]) = .ok program :=
  parse_eq_of_reads reads (by decide) default

/-- Where no program goes on, one could have, and the text behind has no part in it. -/
theorem parseProgram_fault {tokens : List Token} {failure : Failure} (ends : EndsOnce tokens)
    (failed : parseProgram tokens = .error failure) :
    ∃ read head rest, tokens = read ++ head :: rest ∧ failure.rest = head :: rest ∧
      (∃ more program, Grammar.full.statements.Reads (read ++ more) program TokenKind.Closes) ∧
      ∀ rest, parseProgram (read ++ head :: rest) =
        .error { expected := failure.expected, rest := head :: rest } := by
  have guided := (Grammar.full_guided (tokens.length + 1)).statements
  rw [parseProgram_eq] at failed
  rcases Rule.bind_eq_error.mp failed with first | ⟨program, left, first, second⟩
  · -- The statements fail, and they could have gone on.
    obtain ⟨read, same, noEnd, fails, through⟩ :=
      guided.error tokens failure (Nat.lt_succ_self _) first
    obtain ⟨head, rest, split⟩ := List.exists_cons_of_ne_nil (ends.rest_ne same noEnd)
    rw [split] at same fails
    refine ⟨read, head, rest, same, split, ?_, fun others => ?_⟩
    · by_cases some : read = []
      · subst some
        obtain ⟨more, program, reads, _⟩ := guided.starts
        exact ⟨more, program, reads⟩
      · exact through some
    · rw [parseProgram_eq]
      exact fails.bind (head :: others) rfl
  · -- The statements end, and something other than the end of the text comes next.
    obtain ⟨read, same, noEnd, reads⟩ := guided.ok tokens program left (Nat.lt_succ_self _) first
    obtain ⟨head, rest, rfl⟩ := List.exists_cons_of_ne_nil (ends.rest_ne same noEnd)
    have other : head.kind ≠ .endOfText := by
      intro stop
      rw [Rule.bind_apply, Rule.token, if_pos stop] at second
      cases second
    rw [Rule.bind_apply, Rule.token, if_neg other] at second
    cases second
    refine ⟨read, head, rest, same, rfl, ⟨[], program, ?_⟩, fun others => ?_⟩
    · rw [List.append_nil]
      exact reads.mono fun _ => .inr
    · rw [parseProgram_eq, Rule.bind_apply, reads (head :: others) (.inl rfl)]
      simp only [Rule.bind_apply, Rule.token, if_neg other]
      rfl

/--
A syntax error lies at a token such that the tokens before it begin some program, and everything that
agrees up to and with that token has the same error.
-/
theorem parse_error_first_fault {tokens : List Token} {error : SyntaxError}
    (ends : EndsOnce tokens) (failed : parse tokens = .error error) :
    ∃ i, ∃ inside : i < tokens.length, error.span = tokens[i].span ∧
      (∃ completed program, EndsOnce completed ∧ tokens.take i <+: completed ∧
        parse completed = .ok program) ∧
      ∀ other, other.take (i + 1) = tokens.take (i + 1) → parse other = .error error := by
  cases parsed : parseProgram tokens with
  | ok program =>
    simp only [parse, parsed] at failed
    cases failed
  | error failure =>
    obtain ⟨read, head, rest, rfl, split, ⟨more, program, reads⟩, same⟩ :=
      parseProgram_fault ends parsed
    -- The first token that is not read is the one to blame.
    have blamed : ∀ others, parse (read ++ head :: others) =
        .error { cause := .unexpected failure.expected, span := head.span } := by
      intro others
      simp only [parse, same others]
      rfl
    rw [blamed] at failed
    cases failed
    refine ⟨read.length, by simp, by simp, ?_, fun other agrees => ?_⟩
    · refine ⟨_, program, .of_noEnd (noEnd_of_reads reads), ?_, parse_of_reads reads⟩
      simp [List.append_assoc]
    · have begins : read ++ [head] <+: other := by
        rw [← List.take_append_drop (read.length + 1) other, agrees, List.take_append]
        simp [List.take_of_length_le]
      obtain ⟨others, rfl⟩ := begins
      rw [List.append_assoc]
      exact blamed others

/-- An assignment with a parenthesis in the place of its sign. -/
def misassigned : List Token :=
  let span := fun first last => ⟨default, ⟨first, 0, first⟩, ⟨last, 0, last⟩⟩
  [⟨.keyword .varWord, span 0 3⟩, ⟨.identifier "x", span 4 5⟩, ⟨.symbol .rightParen, span 6 7⟩,
    ⟨.endOfText, span 7 7⟩]

/-- The parenthesis is the first fault of the assignment, because a sign could have stood there. -/
theorem parse_error_first_fault_misassigned :
    ∃ i, ∃ inside : i < misassigned.length,
      (⟨default, ⟨6, 0, 6⟩, ⟨7, 0, 7⟩⟩ : Span) = misassigned[i].span ∧
      (∃ completed program, EndsOnce completed ∧ misassigned.take i <+: completed ∧
        parse completed = .ok program) ∧
      ∀ other, other.take (i + 1) = misassigned.take (i + 1) →
        parse other = .error ⟨.unexpected .assign, ⟨default, ⟨6, 0, 6⟩, ⟨7, 0, 7⟩⟩⟩ := by
  have ends : EndsOnce misassigned :=
    ⟨misassigned.take 3, ⟨.endOfText, ⟨default, ⟨7, 0, 7⟩, ⟨7, 0, 7⟩⟩⟩, rfl,
      by simp [NoEnd, misassigned], rfl⟩
  exact parse_error_first_fault ends rfl

end Scriptlet
