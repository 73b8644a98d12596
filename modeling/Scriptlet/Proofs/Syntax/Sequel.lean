import Scriptlet.Proofs.Syntax.FirstFault

/-!
Programs that go on on the next line. A newline ends every statement that the end of the text ends,
so the statements of a program stay what they are before the statements of another one.
-/

namespace Scriptlet

namespace Grammar

/-- More statements at newlines are those at the last one of them. -/
theorem anotherStatement_newline {first : Token} (kind : first.kind = .newline)
    {rest : List Token} (next : nextKind rest = .newline) :
    full.anotherStatement (first :: rest) = full.anotherStatement rest := by
  -- In both cases there are newlines, and the same tokens behind them.
  cases rest with
  | nil => cases next
  | cons second rest =>
    have skipped : Rule.afterNewlines (first :: second :: rest) =
        Rule.afterNewlines (second :: rest) := if_pos kind
    have skipped' : Rule.afterNewlines (second :: rest) = Rule.afterNewlines rest := if_pos next
    have shorter := Rule.length_afterNewlines_le rest
    have some : (Rule.afterNewlines rest).length < (first :: second :: rest).length := by
      simp only [List.length_cons]
      omega
    have some' : (Rule.afterNewlines rest).length < (second :: rest).length := by
      simp only [List.length_cons]
      omega
    simp only [anotherStatement, Rule.bind_apply, Rule.newlines, skipped, skipped', some, some',
      decide_true, ↓reduceIte]

/-- A statement behind a newline is another statement. -/
theorem anotherStatement_cons {first : Token} (kind : first.kind = .newline)
    (rest : List Token) :
    full.anotherStatement (first :: rest) =
      full.statementRule.optional (Rule.afterNewlines rest) := by
  -- The newline is there.
  have skipped : Rule.afterNewlines (first :: rest) = Rule.afterNewlines rest := if_pos kind
  have shorter := Rule.length_afterNewlines_le rest
  have some : (Rule.afterNewlines rest).length < (first :: rest).length := by
    simp only [List.length_cons]
    omega
  simp only [anotherStatement, Rule.bind_apply, Rule.newlines, skipped, some, decide_true,
    ↓reduceIte]

/-- A program is the first statement and all others, each behind a newline. -/
theorem statements_eq_ok {line : Token} (kind : line.kind = .newline) {tokens rest : List Token}
    {program : Node} :
    full.statements tokens = .ok (program, rest) ↔
      ∃ first more, Rule.many full.anotherStatement (line :: tokens) = .ok (first :: more, rest) ∧
        program = .sequence (first.span.through (more.getLast?.getD first).span)
          (first :: more) := by
  -- The first statement is another one behind the newline.
  rw [full_statements, Rule.many_eq consumes_anotherStatement rfl]
  simp only [statementsRule, Rule.bind_apply, Rule.newlines, anotherStatement_cons kind,
    Rule.optional]
  cases full.statementRule (Rule.afterNewlines tokens) with
  | error failure =>
    by_cases inside : failure.rest.length < (Rule.afterNewlines tokens).length
    · simp [inside]
    · simp [inside]
  | ok parsed =>
    obtain ⟨first, left⟩ := parsed
    simp only [Rule.bind_apply]
    cases Rule.many full.anotherStatement left with
    | error failure => simp
    | ok parsed =>
      obtain ⟨more, last⟩ := parsed
      simp only [Rule.pure_apply, Except.ok.injEq, Prod.mk.injEq]
      constructor
      · rintro ⟨rfl, rfl⟩
        exact ⟨first, more, ⟨rfl, rfl⟩, rfl⟩
      · rintro ⟨_, _, ⟨same, rfl⟩, rfl⟩
        obtain ⟨rfl, rfl⟩ := List.cons.inj same
        exact ⟨rfl, rfl⟩

/-- Newlines before a newline make no difference to the statement behind them. -/
theorem anotherStatement_newlines {lines : List Token}
    (all : ∀ token ∈ lines, token.kind = .newline) {line : Token} (kind : line.kind = .newline)
    (sequel : List Token) :
    full.anotherStatement (lines ++ line :: sequel) = full.anotherStatement (line :: sequel) := by
  induction lines with
  | nil => rfl
  | cons token lines ih =>
    rw [List.forall_mem_cons] at all
    have next : nextKind (lines ++ line :: sequel) = .newline := by
      cases lines with
      | nil => exact kind
      | cons second lines => exact all.2 second List.mem_cons_self
    rw [List.cons_append, anotherStatement_newline all.1 next, ih all.2]

/-- Repetitions that start alike are alike. -/
theorem many_anotherStatement_congr {tokens tokens' : List Token}
    (same : full.anotherStatement tokens = full.anotherStatement tokens') :
    Rule.many full.anotherStatement tokens = Rule.many full.anotherStatement tokens' := by
  rw [Rule.many_eq consumes_anotherStatement rfl, Rule.bind_apply, Rule.bind_apply, same]

/-- A statement that was read behind newlines is read there whatever comes next, if it may end. -/
theorem anotherStatement_eq_ok {tokens rest : List Token} {statement : Node}
    (read : full.anotherStatement tokens = .ok (some statement, rest)) :
    ∃ body, tokens = body ++ rest ∧
      full.anotherStatement.Reads body (some statement) fun kind =>
        kind = nextKind rest ∨ kind.Ends := by
  -- The tokens are a newline, perhaps more of them, and those of the statement.
  cases tokens with
  | nil => cases read
  | cons token tail =>
    by_cases kind : token.kind = .newline
    · rw [anotherStatement_cons kind] at read
      obtain ⟨lines, split, all⟩ := Rule.exists_newlines tail
      have parsed := Rule.optional_eq_some.mp read
      have decided := ((full_guided (Rule.afterNewlines tail).length).statementRule).toDecided
      obtain ⟨taken, same, _, reads⟩ := decided.ok _ _ _ (Nat.lt_succ_self _) parsed
      have some : taken ≠ [] := by
        rintro rfl
        rw [List.nil_append] at same
        rw [same] at parsed
        exact decided.reads_some (fun _ => TokenKind.ends_endOfText) rfl
          (same ▸ Nat.lt_succ_self _) parsed
      refine ⟨token :: (lines ++ taken), ?_, ?_⟩
      · rw [List.cons_append, List.append_assoc, ← same, ← split]
      · intro others suitable
        -- The first token of the statement is not a newline.
        have next : nextKind (taken ++ others) ≠ .newline := by
          rw [nextKind_append some others rest, ← same]
          exact Rule.nextKind_afterNewlines tail
        rw [List.cons_append, anotherStatement_cons kind, List.append_assoc,
          Rule.afterNewlines_append all, Rule.afterNewlines_eq next]
        exact reads.optional others suitable
    · have none : Rule.afterNewlines (token :: tail) = token :: tail := Rule.afterNewlines_eq kind
      simp only [anotherStatement, Rule.bind_apply, Rule.newlines, none, Nat.lt_irrefl,
        decide_false, Bool.false_eq_true, ↓reduceIte, Rule.pure_apply] at read
      cases read

/-- Where no other statement is read, there are only newlines to the rest. -/
theorem anotherStatement_eq_none {tokens rest : List Token}
    (read : full.anotherStatement tokens = .ok (none, rest)) :
    ∃ lines, tokens = lines ++ rest ∧ ∀ token ∈ lines, token.kind = .newline := by
  cases tokens with
  | nil =>
    cases read
    exact ⟨[], rfl, by simp⟩
  | cons token tail =>
    by_cases kind : token.kind = .newline
    · rw [anotherStatement_cons kind] at read
      obtain ⟨lines, split, all⟩ := Rule.exists_newlines tail
      rw [Rule.eq_of_optional_eq_none read] at split
      exact ⟨token :: lines, congrArg (token :: ·) split, List.forall_mem_cons.mpr ⟨kind, all⟩⟩
    · have none : Rule.afterNewlines (token :: tail) = token :: tail := Rule.afterNewlines_eq kind
      simp only [anotherStatement, Rule.bind_apply, Rule.newlines, none, Nat.lt_irrefl,
        decide_false, Bool.false_eq_true, ↓reduceIte, Rule.pure_apply] at read
      cases read
      exact ⟨[], rfl, by simp⟩

/--
Statements that end with the text are the same before a newline, and what follows there follows
behind them.
-/
theorem many_joined {line : Token} (kind : line.kind = .newline) {sequel left : List Token}
    {others : List Node}
    (behind : Rule.many full.anotherStatement (line :: sequel) = .ok (others, left)) :
    ∀ (tokens rest : List Token) (results : List Node), nextKind rest = .endOfText →
      Rule.many full.anotherStatement tokens = .ok (results, rest) →
      ∃ body, tokens = body ++ rest ∧
        Rule.many full.anotherStatement (body ++ line :: sequel) =
          .ok (results ++ others, left) := by
  -- The induction is on how many tokens there are; every statement takes some.
  intro tokens
  induction length : tokens.length using Nat.strongRecOn generalizing tokens with
  | ind length ih =>
    intro rest results ended parsed
    rw [Rule.many_eq consumes_anotherStatement rfl, Rule.bind_apply] at parsed
    cases read : full.anotherStatement tokens with
    | error failure =>
      rw [read] at parsed
      cases parsed
    | ok found =>
      obtain ⟨_ | statement, next⟩ := found
      · -- Newlines before the end of the text are newlines before the joint.
        rw [read] at parsed
        cases parsed
        obtain ⟨lines, split, all⟩ := anotherStatement_eq_none read
        refine ⟨lines, split, ?_⟩
        rw [List.nil_append, ← behind]
        exact many_anotherStatement_congr (anotherStatement_newlines all kind sequel)
      · have shorter := consumes_anotherStatement _ _ _ read
        rw [read] at parsed
        obtain ⟨more, last, parsed, same⟩ := Rule.bind_eq_ok.mp parsed
        cases same
        obtain ⟨body, split, joined⟩ := ih next.length (length ▸ shorter) next rfl rest more ended
          parsed
        obtain ⟨front, split', reads⟩ := anotherStatement_eq_ok read
        refine ⟨front ++ body, by rw [split', split, List.append_assoc], ?_⟩
        -- The statement is followed by the next one, or by the newline at the joint.
        have suitable : nextKind (body ++ line :: sequel) = nextKind next ∨
            (nextKind (body ++ line :: sequel)).Ends := by
          cases body with
          | nil =>
            right
            rw [List.nil_append, nextKind_cons, kind]
            decide
          | cons token body =>
            left
            rw [split]
            rfl
        rw [Rule.many_eq consumes_anotherStatement rfl, Rule.bind_apply, List.append_assoc,
          reads _ suitable]
        simp only [Rule.bind_apply, joined]
        rfl

end Grammar

/-- A program is the statements up to the end of the text. -/
theorem parse_eq_ok {tokens : List Token} {program : Node} :
    parse tokens = .ok program ↔
      ∃ stop rest, Grammar.full.statements tokens = .ok (program, stop :: rest) ∧
        stop.kind = .endOfText := by
  -- Behind the statements the end of the text is the only thing that is asked for.
  unfold parse
  rw [parseProgram_eq, Rule.bind_apply]
  cases Grammar.full.statements tokens with
  | error failure => simp
  | ok parsed =>
    obtain ⟨found, rest⟩ := parsed
    cases rest with
    | nil => simp [Rule.bind_apply, Rule.token, Rule.fail]
    | cons stop rest =>
      by_cases ended : stop.kind = .endOfText
      · simp [Rule.bind_apply, Rule.token, ended]
      · simp [Rule.bind_apply, Rule.token, Rule.fail, ended]

/-- Tokens that are alike are alike programs. -/
theorem parse_alike {spans : Span → Span → Prop} (through : Span.RespectsThrough spans)
    {tokens tokens' : List Token} (alike : TokensAlike spans tokens tokens') {program' : Node}
    (parsed : parse tokens' = .ok program') :
    ∃ program, parse tokens = .ok program ∧ program.Similar spans program' := by
  -- Alike statements leave alike tokens, the first of which is the end of the text.
  obtain ⟨stop', rest', read', ended⟩ := parse_eq_ok.mp parsed
  have read := (Grammar.full_similar through tokens.length).statements tokens tokens' alike
    (Nat.le_refl _)
  rw [read'] at read
  generalize found : Grammar.full.statements tokens = parsed at read
  cases read with
  | ok similar left shorter =>
    cases left with
    | cons same others =>
      exact ⟨_, parse_eq_ok.mpr ⟨_, _, found, same.1.trans ended⟩, similar⟩

/-- What comes before an end of the text is all of it, if the text holds no other end. -/
theorem NoEnd.eq_of_end {tokens body rest : List Token} {ended stop : Token}
    (noEnd : NoEnd tokens) (stopped : stop.kind = .endOfText)
    (same : tokens ++ [ended] = body ++ stop :: rest) : body = tokens := by
  -- The end is no token of the text itself, and there is only one place behind them.
  rcases List.append_eq_append_iff.mp same with ⟨between, early, late⟩ | ⟨between, late, early⟩
  · cases between with
    | nil => rw [early, List.append_nil]
    | cons token between =>
      have lengths := congrArg List.length late
      simp at lengths
  · cases between with
    | nil => rw [late, List.append_nil]
    | cons token between =>
      obtain ⟨rfl, -⟩ := List.cons.inj early
      have member : stop ∈ tokens := by
        rw [late]
        simp
      exact absurd stopped (noEnd stop member)

/-- The statements of two programs with a newline between them are the program of both. -/
theorem parse_joined {front others : List Token} {line ended : Token} {first second : Node}
    (newline : line.kind = .newline) (noEnd : NoEnd front)
    (firstParsed : parse (front ++ [ended]) = .ok first)
    (secondParsed : parse others = .ok second) :
    ∃ span span' joint statements statements', first = .sequence span statements ∧
      second = .sequence span' statements' ∧
      parse (front ++ line :: others) = .ok (.sequence joint (statements ++ statements')) := by
  -- Both programs are what is repeated behind the newline.
  obtain ⟨stop, rest, read, stopped⟩ := parse_eq_ok.mp firstParsed
  obtain ⟨stop', rest', read', stopped'⟩ := parse_eq_ok.mp secondParsed
  obtain ⟨head, more, many, rfl⟩ := (Grammar.statements_eq_ok newline).mp read
  obtain ⟨head', more', many', rfl⟩ := (Grammar.statements_eq_ok newline).mp read'
  obtain ⟨body, split, joined⟩ := Grammar.many_joined newline many' (line :: (front ++ [ended]))
    (stop :: rest) (head :: more) stopped many
  -- The first program was read up to the only end of the text.
  have same : body = line :: front := by
    have others : NoEnd (line :: front) := noEnd.cons (by rw [newline]; decide)
    exact others.eq_of_end stopped split
  rw [same, List.cons_append] at joined
  have whole := (Grammar.statements_eq_ok newline).mpr ⟨head, more ++ head' :: more', joined, rfl⟩
  exact ⟨_, _, _, _, _, rfl, rfl, parse_eq_ok.mpr ⟨stop', rest', whole, stopped'⟩⟩

end Scriptlet
