import Scriptlet.Proofs.Syntax.Stopping
import Scriptlet.Proofs.Syntax.Succession

/-!
Every rule of the grammar decides by the next token. A literal can stand wherever an expression can,
so whatever has been started can be brought to an end.
-/

namespace Scriptlet

namespace Grammar

section Starting

/-- The shortest expression. -/
def literal : Token := ⟨.int 0, default⟩

/-- A rule that reads the shortest expression can start with it. -/
theorem starts_of_reads {rule : Rule Node} {final : TokenKind → Prop} {node : Node}
    (reads : rule.Reads [literal] node final) :
    rule.Starts (· = .int 0) fun _ => final :=
  ⟨[literal], node, reads, fun _ _ => rfl⟩

/-- A call can be the shortest expression. -/
theorem reads_literal_call : full.call.Reads [literal] (.int default 0) TokenKind.Ends :=
  reads_call (fun _ _ => rfl) fun _ ends => ends.ne

/-- A factor can be the shortest expression. -/
theorem reads_literal_factor : full.factorRule.Reads [literal] (.int default 0) TokenKind.Ends :=
  reads_factor (fun _ => ⟨by simp [literal], by simp [literal]⟩)
    (reads_power reads_literal_call fun _ ends => ends.leaves _)

/-- A comparison can be the shortest expression. -/
theorem reads_literal_comparison :
    full.comparisonRule.Reads [literal] (.int default 0) TokenKind.Ends := by
  have product := reads_multiplicative reads_literal_factor fun _ ends => ends.leaves _
  have sum := reads_additive product fun _ ends => ends.leaves _
  exact reads_comparison (fun _ => by simp [literal])
    (reads_compared sum fun _ ends => ends.leaves _)

/-- An expression can be the shortest one. -/
theorem reads_literal_expression :
    full.expression.Reads [literal] (.int default 0) TokenKind.Ends :=
  reads_expression (fun _ => by simp [literal])
    (reads_logical reads_literal_comparison fun _ ends => ends.leaves _)

/-- A statement can be the shortest expression. -/
theorem reads_literal_statement :
    full.statement.Reads [literal] (.int default 0) TokenKind.Ends :=
  reads_statement (fun _ => by simp [literal, Signals]) reads_literal_expression

/-- Statements can be the shortest expression alone. -/
theorem starts_statements : full.statements.Starts (· = .int 0) fun _ => TokenKind.Closes := by
  have statement : full.statementRule.Reads [literal] (.int default 0) TokenKind.Closes := by
    rw [← full_statement]
    exact reads_literal_statement.mono fun _ => Or.inl
  have none := Rule.Reads.many_nil consumes_anotherStatement rfl
    (reads_noStatement.mono fun _ (closes : TokenKind.Closes _) => closes.ne_newline)
  have rest : (do
      let first ← full.statementRule
      let more ← Rule.many full.anotherStatement
      let last := more.getLast?.getD first
      return .sequence (first.span.through last.span) (first :: more) : Rule Node).Reads
      [literal] (.sequence ((default : Span).through default) [.int default 0])
      TokenKind.Closes :=
    statement.bind_nil none.map
  have whole : full.statements.Reads [literal]
      (.sequence ((default : Span).through default) [.int default 0]) TokenKind.Closes := by
    intro others closes
    rw [full_statements]
    exact rest others closes
  exact starts_of_reads whole

end Starting

/-- Every rule of a grammar is guided on fewer than so many tokens. -/
structure Guided (length : Nat) (grammar : Grammar) : Prop where
  expression : Rule.Guided length (· = .int 0) (fun _ => TokenKind.Ends) grammar.expression
  comparison : Rule.Guided length (· = .int 0) (fun _ => TokenKind.Ends) grammar.comparison
  factor : Rule.Guided length (· = .int 0) (fun _ => TokenKind.Ends) grammar.factor
  statement : Rule.Guided length (· = .int 0) (fun _ => TokenKind.Ends) grammar.statement
  statements : Rule.Guided length (· = .int 0) (fun _ => TokenKind.Closes) grammar.statements

section Rules

variable {α : Type} {length : Nat} {before : TokenKind → Prop}

/-- What is guided on no tokens only has to be able to start. -/
theorem guided_zero {rule : Rule Node} {final : Node → TokenKind → Prop}
    (starts : rule.Starts before final) : Rule.Guided 0 before final rule where
  ok _ _ _ bound := absurd bound (Nat.not_lt_zero _)
  error _ _ bound := absurd bound (Nat.not_lt_zero _)
  starts := starts

/-- What comes after a comma is decided by the next token. -/
theorem decided_afterComma {item : Rule α}
    (items : Rule.Guided length before (fun _ => TokenKind.Ends) item) :
    Rule.Decided length (fun _ => TokenKind.Ends) (afterComma item) := by
  -- Behind a comma the item is read, and otherwise nothing.
  refine .token?_bind (Nat.le_succ _) (by simp) (.pure fun _ ends => ends.ne) (fun _ => ?_) ?_
  · exact (items.mono (Nat.le_refl _) fun _ _ => trivial).map fun _ _ => id
  · exact fun _ _ _ _ _ ends => ends.ne

/-- Expressions between commas are guided up to the symbol that closes them. -/
theorem Guided.delimited (guided : full.Guided length) (closing : Symbol)
    (closes : (TokenKind.symbol closing).Ends) (first next : Expectation) :
    Rule.Guided length (fun _ => True) (fun _ _ => True)
      (full.delimited closing first next) where
  toDecided := by
    -- Without the symbol there is an expression, and it is closed behind the others.
    have more : Rule.Guided length TokenKind.Ends (fun _ => TokenKind.Ends)
        (Rule.many (afterComma full.expression)) :=
      .many (Rule.consumes_afterComma shrinks_expression) rfl
        (decided_afterComma guided.expression) reads_noComma fun _ => id
    have item : Rule.Guided length (· ≠ .symbol closing) (fun _ => TokenKind.Ends)
        (full.expression.orExpected first) :=
      guided.expression.orExpected.mono (Nat.le_refl _) (by rintro _ rfl; simp)
    have close : Rule.Guided length TokenKind.Ends (fun _ _ => True)
        (Rule.symbol closing next) := .token (by simp) closes
    refine .token?_bind_some (by simp) ?_ (fun _ => .pure fun _ => id) (fun _ => trivial)
      ⟨_, rfl⟩
    refine item.bind_some (fun _ => ?_) (fun _ => trivial) fun _ => ⟨_, rfl⟩
    refine more.bind_some (fun _ => ?_) (fun _ => trivial) fun _ => ⟨_, rfl⟩
    exact close.map fun _ _ => id
  starts := by
    refine Rule.Starts.token? trivial fun close => ?_
    exact ⟨[], ([], close.span), Rule.Reads.pure _, fun _ _ => trivial⟩

/-- A statement, written behind its header or before the end of a line, is never nothing. -/
theorem no_statement : ∃ failure, full.statement [] = .error failure := by
  rw [full_statement]
  exact ⟨_, fails_statement_of_ends [] TokenKind.ends_endOfText⟩

/-- A block is guided behind its first newline. -/
theorem Guided.block (guided : full.Guided length) :
    Rule.Guided length (fun _ => True) (fun body => body.2.Final)
      (do return (← full.statements, .block) : Rule (Node × BodyForm)) :=
  (guided.statements.mono (Nat.le_refl _) fun _ _ => trivial).map fun _ _ => id

/-- A body is guided; what may follow it depends on its form. -/
theorem Guided.body (guided : full.Guided length) :
    Rule.Guided length (fun _ => True) (fun body => body.2.Final) full.body where
  toDecided := by
    -- A newline makes it a block, and without one there is a statement.
    refine .token?_bind_some (by simp) ?_ (fun _ => guided.block) ?_ ?_
    · exact (guided.statement.mono (Nat.le_refl _) (by rintro _ rfl; simp)).map fun _ _ => id
    · exact fun body => body.2.final_endOfText
    · obtain ⟨failure, none⟩ := no_statement
      have failed : (do return (← full.statement, .inline) : Rule (Node × BodyForm)) [] =
          .error failure := Rule.bind_eq_error.mpr (.inl none)
      exact ⟨failure, failed⟩
  starts := Rule.Starts.token? trivial fun _ => guided.block.starts

/-- The end of a body is guided; one statement needs none. -/
theorem guided_bodyEnd (form : BodyForm) (expected : Expectation) :
    Rule.Guided length form.Final (fun _ => TokenKind.Ends) (bodyEnd form expected) := by
  cases form with
  | inline => exact .pure fun _ => id
  | block =>
    have word : Rule.Guided length TokenKind.Closes (fun _ _ => True)
        (Rule.keyword .endWord expected) := .token (by simp) (by simp)
    exact word.map fun _ _ _ => trivial

/-- What may follow both may follow the body, unless the rule behind a block reads some tokens. -/
theorem final_of_form {β : Type} {form : BodyForm} {rule : Rule β}
    (decided : Rule.Decided length (fun _ => TokenKind.Ends) rule)
    (some : form = .block → ∃ failure, rule [] = .error failure) {tokens : List Token}
    {outcome : β} (bound : tokens.length < length) (read : rule tokens = .ok (outcome, tokens))
    {kind : TokenKind} (ends : kind.Ends) : form.Final kind := by
  -- Behind a block a word is read, so that nothing is handed over there.
  cases form with
  | inline => exact ends
  | block =>
    obtain ⟨failure, none⟩ := some rfl
    exact absurd read (decided.reads_some (fun _ => TokenKind.ends_endOfText) none bound)

/-- A body with its end is guided. -/
theorem Guided.closedBody (guided : full.Guided length) :
    Rule.Guided length (fun _ => True) (fun _ => TokenKind.Ends) full.closedBody := by
  have ended : ∀ body : Node × BodyForm, Rule.Guided length body.2.Final
      (fun _ => TokenKind.Ends)
      (bodyEnd body.2 .endWord >>= fun _ => pure body : Rule (Node × BodyForm)) :=
    fun body => (guided_bodyEnd body.2 .endWord).bind (fun _ => .pure fun _ => id)
      fun _ _ _ _ _ _ => id
  refine guided.body.bind ended ?_
  rintro ⟨body, form⟩ tokens outcome bound read kind ends
  refine final_of_form (ended (body, form)).toDecided ?_ bound read ends
  rintro rfl
  exact ⟨_, rfl⟩

/-- A condition with its body is guided. -/
theorem Guided.branch (guided : full.Guided length) :
    Rule.Guided length (· = .int 0) (fun branch => branch.form.Final) full.branch := by
  have word : Rule.Guided length TokenKind.Ends (fun _ _ => True)
      (Rule.keyword .thenWord .thenWord) := .token (by simp) (.inl (by simp))
  refine guided.expression.bind_some (fun _ => word.bind_any fun _ => ?_)
    (fun branch => branch.form.final_endOfText) fun _ => ⟨_, rfl⟩
  exact guided.body.map fun _ _ => id

/-- One more branch is decided by the next token. -/
theorem Guided.anotherBranch (guided : full.Guided length) :
    Rule.Decided length (fun branch kind => kind ≠ .keyword .elifWord ∧
      ∀ found ∈ branch, found.form.Final kind) full.anotherBranch := by
  refine .token?_bind (Nat.le_succ _) (by simp) (.pure fun _ suitable => suitable.1) (fun _ => ?_) ?_
  · refine (guided.branch.mono (Nat.le_refl _) fun _ _ => trivial).map fun branch kind finals => ?_
    exact finals.2 branch rfl
  · exact fun _ _ _ _ _ suitable => suitable.1

/-- What comes after the last branch is guided, and may be nothing behind one statement. -/
theorem Guided.otherwise (guided : full.Guided length) (form : BodyForm) :
    Rule.Guided length (fun kind => kind ≠ .keyword .elifWord ∧ form.Final kind)
      (fun _ => TokenKind.Ends) (full.otherwise form) := by
  have ended : Rule.Guided length form.Final (fun _ => TokenKind.Ends)
      (bodyEnd form .nextBranch >>= fun _ => pure .none : Rule Choices) :=
    (guided_bodyEnd form .nextBranch).bind (fun _ => .pure fun _ => id) fun _ _ _ _ _ _ => id
  exact {
    toDecided := by
      refine .token?_bind (Nat.le_succ _) (by simp) ?_ (fun _ => ?_) ?_
      · exact ended.mono (Nat.le_refl _) fun _ final => final.ends.ne
      · exact guided.closedBody.map fun _ _ => id
      · exact fun _ _ _ _ _ ends => ends.ne
    starts := by
      refine Rule.Starts.noToken (fun _ suitable => suitable.2.ends.ne) ?_
      exact ended.starts.mono fun _ final => ⟨final.ends.ne, final⟩ }

/-- The branches after the first one are guided. -/
theorem Guided.branches (guided : full.Guided length) (first : Branch) :
    Rule.Guided length first.form.Final (fun more kind => kind ≠ .keyword .elifWord ∧
      (more.getLast?.getD first).form.Final kind) (Rule.many full.anotherBranch) := by
  have nothing : full.anotherBranch.Reads [] none fun kind => kind ≠ .keyword .elifWord ∧
      ∀ found ∈ (none : Option Branch), found.form.Final kind :=
    (Rule.Reads.noToken fun _ suitable => suitable.1).bind_nil (Rule.Reads.pure _)
  exact {
    toDecided := by
      refine guided.anotherBranch.many consumes_anotherBranch rfl nothing _ ?_ ?_
      · exact fun _ _ suitable => ⟨suitable.1, by simp⟩
      · intro results result kind suitable
        simpa using suitable
    starts := by
      refine ⟨[], [], ?_, fun _ suitable => suitable.2⟩
      exact Rule.Reads.many_nil consumes_anotherBranch rfl
        (nothing.mono fun _ suitable => ⟨suitable.1, by simp⟩) }

/-- A conditional is guided behind its first word. -/
theorem Guided.conditional (guided : full.Guided length) (word : Span) :
    Rule.Guided length (· = .int 0) (fun _ => TokenKind.Ends) (full.conditional word) := by
  -- Behind the last branch, what may come next depends on whether that one is a block.
  have ended : ∀ first (more : List Branch), Rule.Guided length (fun kind =>
      kind ≠ .keyword .elifWord ∧ (more.getLast?.getD first).form.Final kind)
      (fun _ => TokenKind.Ends) (do
        let last ← full.otherwise (more.getLast?.getD first).form
        let choices := (first :: more).foldr Branch.before last
        return .conditional (word.through (choices.lastBody?.getD word)) choices : Rule Node) :=
    fun first more => (guided.otherwise _).map fun _ _ => id
  have choices : ∀ first : Branch, Rule.Guided length first.form.Final
      (fun _ => TokenKind.Ends) (do
        let more ← Rule.many full.anotherBranch
        let last ← full.otherwise (more.getLast?.getD first).form
        let choices := (first :: more).foldr Branch.before last
        return .conditional (word.through (choices.lastBody?.getD word)) choices : Rule Node) := by
    intro first
    refine (guided.branches first).bind (ended first) ?_
    intro more tokens outcome bound read kind ends
    refine ⟨ends.ne, final_of_form (ended first more).toDecided ?_ bound read ends⟩
    intro block
    rw [block]
    exact ⟨_, rfl⟩
  refine guided.branch.bind choices ?_
  intro first tokens outcome bound read kind ends
  refine final_of_form (choices first).toDecided ?_ bound read ends
  obtain ⟨condition, body, form⟩ := first
  rintro rfl
  exact ⟨_, rfl⟩

/-- The step of a counted loop is guided, and may be left out. -/
theorem Guided.step (guided : full.Guided length) :
    Rule.Guided length TokenKind.Ends (fun _ => TokenKind.Ends) full.step where
  toDecided := by
    refine .token?_bind (Nat.le_succ _) (by simp) (.pure fun _ ends => ends.ne) (fun _ => ?_) ?_
    · exact (guided.expression.mono (Nat.le_refl _) fun _ _ => trivial).map fun _ _ => id
    · exact fun _ _ _ _ _ ends => ends.ne
  starts := by
    refine Rule.Starts.noToken (fun _ ends => ends.ne) ?_
    exact ⟨[], none, Rule.Reads.pure _, fun _ => id⟩

/-- A counted loop is guided behind its first word. -/
theorem Guided.forLoop (guided : full.Guided length) :
    Rule.Guided length (fun _ => True) (fun _ => TokenKind.Ends) full.forLoop := by
  have name : Rule.Guided length (fun _ => True) (fun _ _ => True)
      (Rule.identifier .identifier) := .identifier "x" trivial
  have assign : Rule.Guided length (fun _ => True) (fun _ _ => True)
      (Rule.symbol .assign .assign) := .token (by simp) trivial
  have toWord : Rule.Guided length TokenKind.Ends (fun _ _ => True)
      (Rule.keyword .toWord .toWord) := .token (by simp) (.inl (by simp))
  have thenWord : Rule.Guided length TokenKind.Ends (fun _ _ => True)
      (Rule.keyword .thenWord .thenWord) := .token (by simp) (.inl (by simp))
  have expression := fun (before : TokenKind → Prop) (suitable : before (.int 0)) =>
    guided.expression.mono (Nat.le_refl _) fun _ same => same ▸ suitable
  have ends : ∀ _ : Node, TokenKind.Ends .endOfText := fun _ => TokenKind.ends_endOfText
  -- The parts are guided one by one, and each expression is ended by the word behind it.
  refine name.bind_any fun _ => assign.bind_any fun _ => ?_
  refine (expression _ trivial).bind_some (fun _ => toWord.bind_any fun _ => ?_) ends
    fun _ => ⟨_, rfl⟩
  refine (expression _ trivial).bind_some (fun _ => ?_) ends fun _ => ⟨_, rfl⟩
  refine guided.step.bind_some (fun _ => thenWord.bind_any fun _ => ?_) ends fun _ => ⟨_, rfl⟩
  exact guided.closedBody.map fun _ _ => id

/-- A conditional loop is guided behind its first word. -/
theorem Guided.whileLoop (guided : full.Guided length) :
    Rule.Guided length (· = .int 0) (fun _ => TokenKind.Ends) full.whileLoop := by
  have word : Rule.Guided length TokenKind.Ends (fun _ _ => True)
      (Rule.keyword .thenWord .thenWord) := .token (by simp) (.inl (by simp))
  refine guided.expression.bind_some (fun _ => word.bind_any fun _ => ?_)
    (fun _ => TokenKind.ends_endOfText) fun _ => ⟨_, rfl⟩
  exact guided.closedBody.map fun _ _ => id

/-- Without a name, a function has its parameters at once. -/
theorem functionName_eq {tokens : List Token}
    (unnamed : ∀ name, nextKind tokens ≠ .identifier name) :
    functionName tokens = (do
      let _ ← Rule.symbol .leftParen .identifierOrParameters
      return none : Rule (Option String)) tokens := by
  cases tokens with
  | nil => rfl
  | cons token rest =>
    obtain ⟨kind, span⟩ := token
    cases kind with
    | identifier name => exact absurd rfl (unnamed name)
    | _ => rfl

/-- Without a first parameter, there are none. -/
theorem parameters_eq {tokens : List Token}
    (unnamed : ∀ name, nextKind tokens ≠ .identifier name) :
    parameters tokens = (do
      let _ ← Rule.symbol .rightParen .firstParameter
      return [] : Rule (List String)) tokens := by
  cases tokens with
  | nil => rfl
  | cons token rest =>
    obtain ⟨kind, span⟩ := token
    cases kind with
    | identifier name => exact absurd rfl (unnamed name)
    | _ => rfl

/-- A token behind which everything may follow, and the result that it stands for, are guided. -/
theorem guided_token {kind : TokenKind} {expected : Expectation} (result : α)
    (inside : kind ≠ .endOfText) :
    Rule.Guided length (fun _ => True) (fun _ _ => True)
      (do let _ ← Rule.token kind expected; return result : Rule α) :=
  (Rule.Guided.token inside trivial : Rule.Guided length (fun _ => True) (fun _ _ => True)
    (Rule.token kind expected)).map fun _ _ => id

/-- The name of a function is guided. -/
theorem guided_functionName :
    Rule.Guided (length + 1) (fun _ => True) (fun _ _ => True) functionName where
  toDecided := by
    refine .of_first (fun _ => trivial) fun kind => ?_
    by_cases named : ∃ name, kind = .identifier name
    · obtain ⟨name, rfl⟩ := named
      exact .inl ⟨by simp, _, fun _ _ => rfl, fun _ => guided_token (some name) (by simp)⟩
    · refine .inr ⟨_, fun tokens same => functionName_eq fun name found => ?_,
        (guided_token none (by simp)).toDecided, .inl ⟨_, rfl⟩⟩
      exact named ⟨name, same ▸ found⟩
  starts := ⟨[⟨.symbol .leftParen, default⟩], none, fun _ _ => rfl, fun _ _ => trivial⟩

/-- The parameters of a function are guided. -/
theorem guided_parameters :
    Rule.Guided (length + 1) (fun _ => True) (fun _ _ => True) parameters where
  toDecided := by
    have name : Rule.Guided length (fun _ => True) (fun _ => TokenKind.Ends)
        (Rule.identifier .identifier) :=
      Rule.Guided.final_mono (.identifier "x" trivial) fun _ _ _ => trivial
    have more : Rule.Guided length (fun _ => True) (fun _ => TokenKind.Ends)
        (Rule.many (afterComma (Rule.identifier .identifier))) :=
      .many (Rule.consumes_afterComma (Rule.shrinks_identifier _)) rfl (decided_afterComma name)
        reads_noComma fun _ _ => trivial
    have close : Rule.Guided length TokenKind.Ends (fun _ _ => True)
        (Rule.symbol .rightParen .nextArgument) := .token (by simp) (.inl (by simp))
    refine .of_first (fun _ => trivial) fun kind => ?_
    by_cases named : ∃ name, kind = .identifier name
    · -- More parameters may follow behind the first one.
      obtain ⟨first, rfl⟩ := named
      refine .inl ⟨by simp, _, fun _ _ => rfl, fun _ => ?_⟩
      exact more.bind_some (fun _ => close.map fun _ _ => id) (fun _ => trivial) fun _ => ⟨_, rfl⟩
    · refine .inr ⟨_, fun tokens same => parameters_eq fun name found => ?_,
        (guided_token [] (by simp)).toDecided, .inl ⟨_, rfl⟩⟩
      exact named ⟨name, same ▸ found⟩
  starts := ⟨[⟨.symbol .rightParen, default⟩], [], fun _ _ => rfl, fun _ _ => trivial⟩

/-- The body of a function is guided. -/
theorem Guided.functionBody (guided : full.Guided length) :
    Rule.Guided length (fun _ => True) (fun _ => TokenKind.Ends) full.functionBody := by
  have close : Rule.Guided length TokenKind.Closes (fun _ _ => True)
      (Rule.keyword .endWord .endWord) := .token (by simp) (by simp)
  have newline : Rule.Guided length (· ≠ .symbol .arrow) (fun _ _ => True)
      (Rule.token .newline .functionBody) := .token (by simp) (by simp)
  have arrow : ∀ _ : Token, Rule.Guided length (fun _ => True) (fun _ => TokenKind.Ends)
      (do
        let body ← full.expression
        return (body, .inline, body.span) : Rule (Node × BodyForm × Span)) :=
    fun _ => (guided.expression.mono (Nat.le_refl _) fun _ _ => trivial).map fun _ _ => id
  exact {
    toDecided := by
      refine .token?_bind_some (by simp) ?_ arrow (fun _ => TokenKind.ends_endOfText) ⟨_, rfl⟩
      refine newline.bind_any fun _ => ?_
      refine (guided.statements.mono (Nat.le_refl _) fun _ _ => trivial).bind_some
        (fun _ => close.map fun _ _ _ => trivial) (fun _ => TokenKind.ends_endOfText) fun _ => ⟨_, rfl⟩
    starts := Rule.Starts.token? trivial fun token => (arrow token).starts }

/-- A function is guided behind its first word. -/
theorem Guided.function (guided : full.Guided length) (word : Span) :
    Rule.Guided length (fun _ => True) (fun _ => TokenKind.Ends) (full.function word) := by
  refine (guided_functionName.mono (Nat.le_succ _) fun _ => id).bind_any fun _ => ?_
  refine (guided_parameters.mono (Nat.le_succ _) fun _ => id).bind_any fun _ => ?_
  exact guided.functionBody.map fun _ _ => id

/-- An expression is guided behind an opening parenthesis. -/
theorem Guided.parenthesised (guided : full.Guided length) :
    Rule.Guided length (· = .int 0) (fun _ => TokenKind.Ends) full.parenthesised := by
  have close : Rule.Guided length TokenKind.Ends (fun _ _ => True)
      (Rule.symbol .rightParen .closingParenthesis) := .token (by simp) (.inl (by simp))
  exact guided.expression.bind_some (fun _ => close.map fun _ _ _ => trivial)
    (fun _ => TokenKind.ends_endOfText) fun _ => ⟨_, rfl⟩

/-- A list is guided behind its opening bracket. -/
theorem Guided.list (guided : full.Guided length) (bracket : Span) :
    Rule.Guided length (fun _ => True) (fun _ => TokenKind.Ends) (full.list bracket) :=
  (guided.delimited .rightBracket (.inl (by simp)) .firstElement .nextElement).map
    fun _ _ _ => trivial

/-- An atom is guided by its first token. -/
theorem Guided.atom (guided : full.Guided length) :
    Rule.Guided (length + 1) (· = .int 0) (fun _ => TokenKind.Ends) full.atom where
  toDecided := by
    have leaf : ∀ (told : Span → Node) (span : Span), Rule.Guided length (fun _ => True)
        (fun _ => TokenKind.Ends) (pure (told span) : Rule Node) :=
      fun _ _ => .pure fun _ _ => trivial
    refine .of_first (fun _ => TokenKind.ends_endOfText) fun kind => ?_
    by_cases starts : kind.StartsAtom
    · -- Each of these tokens is a literal or a variable, or introduces what is guided behind it.
      left
      cases kind with
      | int value => exact ⟨by simp, _, fun _ _ => rfl, leaf fun span => .int span value⟩
      | float value => exact ⟨by simp, _, fun _ _ => rfl, leaf fun span => .float span value⟩
      | text value => exact ⟨by simp, _, fun _ _ => rfl, leaf fun span => .text span value⟩
      | identifier name =>
        exact ⟨by simp, _, fun _ _ => rfl, leaf fun span => .reference span name⟩
      | symbol sign =>
        cases sign with
        | leftParen =>
          exact ⟨by simp, fun _ => _, fun _ _ => rfl, fun _ =>
            guided.parenthesised.mono (Nat.le_refl _) fun _ _ => trivial⟩
        | leftBracket => exact ⟨by simp, _, fun _ _ => rfl, guided.list⟩
        | _ => simp [TokenKind.StartsAtom] at starts
      | keyword word =>
        cases word with
        | ifWord =>
          exact ⟨by simp, _, fun _ _ => rfl, fun span =>
            (guided.conditional span).mono (Nat.le_refl _) fun _ _ => trivial⟩
        | forWord => exact ⟨by simp, fun _ => _, fun _ _ => rfl, fun _ => guided.forLoop⟩
        | whileWord =>
          exact ⟨by simp, fun _ => _, fun _ _ => rfl, fun _ =>
            guided.whileLoop.mono (Nat.le_refl _) fun _ _ => trivial⟩
        | funWord => exact ⟨by simp, _, fun _ _ => rfl, guided.function⟩
        | _ => simp [TokenKind.StartsAtom] at starts
      | _ => exact starts.elim
    · right
      exact ⟨_, fun tokens same => atom_eq_fail (same ▸ starts), .fail .atom, .inl ⟨_, rfl⟩⟩
  starts := starts_of_reads fun _ _ => rfl

/-- One more list of arguments is decided by its opening parenthesis. -/
theorem Guided.arguments (guided : full.Guided length) :
    Rule.Decided (length + 1) (fun _ => TokenKind.Ends) full.arguments := by
  refine .token?_bind (Nat.le_refl _) (by simp) (.pure fun _ ends => ends.ne) (fun _ => ?_) ?_
  · exact (guided.delimited .rightParen (.inl (by simp)) .firstArgument .nextArgument).map
      fun _ _ _ => trivial
  · exact fun _ _ _ _ _ ends => ends.ne

/-- An atom with the lists of arguments behind it is guided. -/
theorem Guided.call (guided : full.Guided length) :
    Rule.Guided (length + 1) (· = .int 0) (fun _ => TokenKind.Ends) full.call := by
  have none : full.arguments.Reads [] none TokenKind.Ends :=
    (Rule.Reads.noToken fun _ ends => ends.ne).bind_nil (Rule.Reads.pure _)
  have calls : Rule.Guided (length + 1) TokenKind.Ends (fun _ => TokenKind.Ends)
      (Rule.many full.arguments) :=
    .many consumes_arguments rfl guided.arguments none fun _ => id
  exact guided.atom.bind (fun _ => calls.map fun _ _ => id) fun _ _ _ _ _ _ => id

/-- An operator and its operand are decided by the operator. -/
theorem decided_operation {operand : Rule Node} {level : Level}
    (guided : Rule.Guided length (· = .int 0) (fun _ => TokenKind.Ends) operand) :
    Rule.Decided (length + 1) (fun _ => TokenKind.Ends)
      (Rule.operation operand (TokenKind.operatorAt? level)) := by
  refine .of_first (fun _ => TokenKind.ends_endOfText) fun kind => ?_
  cases found : kind.operatorAt? level with
  | none =>
    refine .inr ⟨pure none, fun tokens same => operation_absent (same ▸ found), ?_, .inr ?_⟩
    · exact (Rule.Guided.pure fun _ => id : Rule.Guided _ TokenKind.Ends _ _).toDecided
    · exact fun _ _ ends => operation_absent (ends.leaves level).operatorAt?
  | some operator =>
    refine .inl ⟨?_, fun _ => _, fun _ rest => operation_present found rest, fun _ => ?_⟩
    · rintro rfl
      cases found
    · exact (guided.mono (Nat.le_refl _) fun _ _ => trivial).map fun _ _ => id

/-- Operands between the operators of a level are guided when each of them is. -/
theorem guided_operations {first operand : Rule Node} {level : Level} (shrinks : operand.Shrinks)
    (firsts : Rule.Guided (length + 1) (· = .int 0) (fun _ => TokenKind.Ends) first)
    (operands : Rule.Guided length (· = .int 0) (fun _ => TokenKind.Ends) operand) :
    Rule.Guided (length + 1) (· = .int 0) (fun _ => TokenKind.Ends) (do
      let first ← first
      let operations ← Rule.many (Rule.operation operand (TokenKind.operatorAt? level))
      return operations.foldl (fun left (operator, right) => .joined operator left right) first) := by
  have operations : Rule.Guided (length + 1) TokenKind.Ends (fun _ => TokenKind.Ends)
      (Rule.many (Rule.operation operand (TokenKind.operatorAt? level))) :=
    .many (Rule.consumes_operation shrinks) rfl (decided_operation operands)
      (reads_noOperation fun _ ends => ends.leaves level) fun _ => id
  exact firsts.bind (fun _ => operations.map fun _ _ => id) fun _ _ _ _ _ _ => id

/-- Operands between the operators of a level are guided when the operand is. -/
theorem guided_chain {operand : Rule Node} (level : Level) (shrinks : operand.Shrinks)
    (operands : Rule.Guided (length + 1) (· = .int 0) (fun _ => TokenKind.Ends) operand) :
    Rule.Guided (length + 1) (· = .int 0) (fun _ => TokenKind.Ends)
      (Rule.chain operand (TokenKind.operatorAt? level)) :=
  guided_operations shrinks operands (operands.mono (Nat.le_succ _) fun _ => id)

/-- A factor is guided by its first token. -/
theorem Guided.factorRule (guided : full.Guided length) :
    Rule.Guided (length + 1) (· = .int 0) (fun _ => TokenKind.Ends) full.factorRule where
  toDecided := by
    have signed : ∀ operator sign, Rule.Guided length (fun _ => True) (fun _ => TokenKind.Ends)
        (prefixed operator sign full.factor) := fun _ _ =>
      (guided.factor.mono (Nat.le_refl _) fun _ _ => trivial).map fun _ _ => id
    have power : Rule.Guided (length + 1) (· = .int 0) (fun _ => TokenKind.Ends) full.power :=
      guided_operations shrinks_factor guided.call guided.factor
    refine .of_first (fun _ => TokenKind.ends_endOfText) fun kind => ?_
    by_cases minus : kind = .symbol .minus
    · subst minus
      exact .inl ⟨by simp, _, fun _ _ => rfl, signed .negate⟩
    · by_cases plus : kind = .symbol .plus
      · subst plus
        exact .inl ⟨by simp, _, fun _ _ => rfl, signed .plus⟩
      · exact .inr ⟨_, fun _ same => factorRule_eq (same ▸ minus) (same ▸ plus), power.toDecided,
          .inl ⟨_, rfl⟩⟩
  starts := starts_of_reads reads_literal_factor

/-- A comparison is guided by its first token. -/
theorem Guided.comparisonRule (guided : full.Guided length) :
    Rule.Guided (length + 1) (· = .int 0) (fun _ => TokenKind.Ends) full.comparisonRule where
  toDecided := by
    have negated : ∀ sign, Rule.Guided length (fun _ => True) (fun _ => TokenKind.Ends)
        (prefixed .not sign full.comparison) := fun _ =>
      (guided.comparison.mono (Nat.le_refl _) fun _ _ => trivial).map fun _ _ => id
    have products := guided_chain .multiplicative shrinks_factorRule guided.factorRule
    have sums := guided_chain .additive shrinks_multiplicative products
    have compared := guided_chain .comparison shrinks_additive sums
    refine .of_first (fun _ => TokenKind.ends_endOfText) fun kind => ?_
    by_cases word : kind = .keyword .notWord
    · subst word
      exact .inl ⟨by simp, _, fun _ _ => rfl, negated⟩
    · exact .inr ⟨_, fun _ same => comparisonRule_eq (same ▸ word), compared.orExpected.toDecided,
        .inl ⟨_, rfl⟩⟩
  starts := starts_of_reads reads_literal_comparison

/-- An assignment is guided behind its first word. -/
theorem Guided.assignment (guided : full.Guided length) :
    Rule.Guided length (fun _ => True) (fun _ => TokenKind.Ends) full.assignment := by
  have name : Rule.Guided length (fun _ => True) (fun _ _ => True)
      (Rule.identifier .identifier) := .identifier "x" trivial
  have sign : Rule.Guided length (fun _ => True) (fun _ _ => True)
      (Rule.symbol .assign .assign) := .token (by simp) trivial
  refine name.bind_any fun _ => sign.bind_any fun _ => ?_
  exact (guided.expression.mono (Nat.le_refl _) fun _ _ => trivial).map fun _ _ => id

/-- An expression is guided by its first token. -/
theorem Guided.expressionRule (guided : full.Guided length) :
    Rule.Guided (length + 1) (· = .int 0) (fun _ => TokenKind.Ends) full.expressionRule where
  toDecided := by
    have logical := guided_chain .logical shrinks_comparisonRule guided.comparisonRule
    refine .of_first (fun _ => TokenKind.ends_endOfText) fun kind => ?_
    by_cases word : kind = .keyword .varWord
    · subst word
      exact .inl ⟨by simp, fun _ => _, fun _ _ => rfl, fun _ => guided.assignment⟩
    · exact .inr ⟨_, fun _ same => expressionRule_eq (same ▸ word), logical.orExpected.toDecided,
        .inl ⟨_, fails_expression [] TokenKind.ends_endOfText.stops.2⟩⟩
  starts := by
    rw [← full_expression]
    exact starts_of_reads reads_literal_expression

/-- What a function returns is guided, and may be left out. -/
theorem Guided.returning (guided : full.Guided length) (word : Span) :
    Rule.Guided length (fun _ => True) (fun _ => TokenKind.Ends) (full.returning word) := by
  have none : full.expression.Fails [] .expression TokenKind.Ends :=
    fails_expression.mono fun _ ends => ends.stops.2
  have value : Rule.Guided length (fun _ => True) (fun _ => TokenKind.Ends)
      full.expression.optional := {
    toDecided := guided.expression.toDecided.optional (fun _ _ => id) none
    starts := ⟨[], Option.none, none.optional, fun _ _ => trivial⟩ }
  exact value.map fun _ _ => id

/-- A statement is guided by its first token. -/
theorem Guided.statementRule (guided : full.Guided length) :
    Rule.Guided (length + 1) (· = .int 0) (fun _ => TokenKind.Ends) full.statementRule where
  toDecided := by
    have signal : ∀ (told : Span → Node) (span : Span), Rule.Guided length (fun _ => True)
        (fun _ => TokenKind.Ends) (pure (told span) : Rule Node) :=
      fun _ _ => .pure fun _ _ => trivial
    have expression := fails_expression
    rw [full_expression] at expression
    refine .of_first (fun _ => TokenKind.ends_endOfText) fun kind => ?_
    by_cases signals : Signals kind
    · left
      simp only [Signals, List.mem_cons, List.not_mem_nil, or_false] at signals
      rcases signals with rfl | rfl | rfl
      · exact ⟨by simp, _, fun _ _ => rfl, guided.returning⟩
      · exact ⟨by simp, _, fun _ _ => rfl, signal .continuing⟩
      · exact ⟨by simp, _, fun _ _ => rfl, signal .breaking⟩
    · exact .inr ⟨_, fun _ same => statementRule_eq (same ▸ signals),
        guided.expressionRule.orExpected.toDecided,
        .inl ⟨_, expression.orExpected_nil [] TokenKind.ends_endOfText.stops.2⟩⟩
  starts := by
    rw [← full_statement]
    exact starts_of_reads reads_literal_statement

/-- Another statement is decided by the token behind the newlines. -/
theorem Guided.anotherStatement (guided : full.Guided length) :
    Rule.Decided (length + 1) (fun _ => TokenKind.Closes) full.anotherStatement := by
  have none : full.statementRule.Fails [] .statement TokenKind.Closes := by
    rw [← full_statement]
    exact fails_statement_of_ends.mono fun _ => Or.inl
  refine Rule.Decided.newlines.bind ?_ fun _ _ _ _ _ _ closes => closes.ne_newline
  rintro (_ | _)
  · exact .pure fun _ closes => closes.ne_newline
  · exact {
      toDecided := guided.statementRule.toDecided.optional (fun _ _ => Or.inl) none
      starts := ⟨[], Option.none, none.optional, fun _ closes => closes.ne_newline⟩ }

/-- Statements between newlines are guided. -/
theorem Guided.statementsRule (guided : full.Guided length) :
    Rule.Guided (length + 1) (· = .int 0) (fun _ => TokenKind.Closes) full.statementsRule where
  toDecided := by
    have none : full.anotherStatement.Reads [] none TokenKind.Closes :=
      reads_noStatement.mono fun _ closes => closes.ne_newline
    have more : Rule.Guided (length + 1) TokenKind.Ends (fun _ => TokenKind.Closes)
        (Rule.many full.anotherStatement) :=
      .many consumes_anotherStatement rfl guided.anotherStatement none fun _ => Or.inl
    have statement : Rule.Guided (length + 1) (· ≠ .newline) (fun _ => TokenKind.Ends)
        full.statementRule :=
      guided.statementRule.mono (Nat.le_refl _) (by rintro _ rfl; simp)
    refine Rule.Decided.newlines.bind (fun _ => ?_) fun _ _ _ _ _ _ closes => closes.ne_newline
    exact statement.bind (fun _ => more.map fun _ _ => id) fun _ _ _ _ _ _ => Or.inl
  starts := by
    rw [← full_statements]
    exact starts_statements

end Rules

/-- Every rule of the full grammar is guided, however many tokens there are. -/
theorem full_guided (length : Nat) : full.Guided length := by
  -- What comes back to a rule comes back to it on fewer tokens.
  induction length with
  | zero =>
    have comparison : full.comparison.Starts (· = .int 0) fun _ => TokenKind.Ends := by
      rw [full_comparison]
      exact starts_of_reads reads_literal_comparison
    have factor : full.factor.Starts (· = .int 0) fun _ => TokenKind.Ends := by
      rw [full_factor]
      exact starts_of_reads reads_literal_factor
    exact {
      expression := guided_zero (starts_of_reads reads_literal_expression)
      comparison := guided_zero comparison
      factor := guided_zero factor
      statement := guided_zero (starts_of_reads reads_literal_statement)
      statements := guided_zero starts_statements }
  | succ length ih =>
    exact {
      expression := full_expression ▸ ih.expressionRule
      comparison := full_comparison ▸ ih.comparisonRule
      factor := full_factor ▸ ih.factorRule
      statement := full_statement ▸ ih.statementRule
      statements := full_statements ▸ ih.statementsRule }

end Grammar

end Scriptlet
