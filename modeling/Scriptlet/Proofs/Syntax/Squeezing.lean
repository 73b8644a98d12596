import Scriptlet.Proofs.Syntax.Operand
import Scriptlet.Proofs.Syntax.Sequel

/-!
Newlines in a row. Wherever the grammar reads a newline it reads all that follow it, so a row of them
is worth as much as its last one.
-/

namespace Scriptlet

/-- The tokens with only the last one of newlines in a row. -/
def squeeze : List Token → List Token
  | [] => []
  | token :: rest =>
    if token.kind = .newline ∧ nextKind rest = .newline then squeeze rest
    else token :: squeeze rest

section Squeezed

variable {token : Token} {tokens rest : List Token}

/-- Any token but a newline stays. -/
theorem squeeze_cons (other : token.kind ≠ .newline) (rest : List Token) :
    squeeze (token :: rest) = token :: squeeze rest :=
  if_neg fun both => other both.1

/-- The same kind of token comes next. -/
theorem nextKind_squeeze (tokens : List Token) : nextKind (squeeze tokens) = nextKind tokens := by
  -- Of newlines in a row the last one is left, which is of the same kind as the first.
  induction tokens with
  | nil => rfl
  | cons token rest ih =>
    rw [squeeze]
    split
    · rename_i both
      rw [ih, both.2, nextKind_cons, both.1]
    · rfl

/-- Of newlines one is left, and then what comes after all of them. -/
theorem squeeze_newline (newline : token.kind = .newline) (rest : List Token) :
    ∃ last : Token, last.kind = .newline ∧
      squeeze (token :: rest) = last :: squeeze (Rule.afterNewlines rest) := by
  -- The induction goes along the newlines.
  induction rest generalizing token with
  | nil => exact ⟨token, newline, by simp [squeeze, Rule.afterNewlines]⟩
  | cons next rest ih =>
    by_cases again : next.kind = .newline
    · obtain ⟨last, kind, same⟩ := ih again
      refine ⟨last, kind, ?_⟩
      rw [squeeze, if_pos ⟨newline, again⟩, same, Rule.afterNewlines, if_pos again]
    · refine ⟨token, newline, ?_⟩
      rw [squeeze, if_neg fun both => again both.2, Rule.afterNewlines, if_neg again]

/-- What comes after newlines is the same before and after they are squeezed. -/
theorem afterNewlines_squeeze (tokens : List Token) :
    Rule.afterNewlines (squeeze tokens) = squeeze (Rule.afterNewlines tokens) := by
  -- Tokens that start with no newline have none to skip, squeezed or not.
  have stays {others : List Token} (other : nextKind others ≠ .newline) :
      Rule.afterNewlines (squeeze others) = squeeze (Rule.afterNewlines others) := by
    rw [Rule.afterNewlines_eq other, Rule.afterNewlines_eq (nextKind_squeeze others ▸ other)]
  cases tokens with
  | nil => rfl
  | cons token rest =>
    by_cases newline : token.kind = .newline
    · obtain ⟨last, kind, same⟩ := squeeze_newline newline rest
      rw [same, Rule.afterNewlines, if_pos kind, Rule.afterNewlines, if_pos newline,
        Rule.afterNewlines_eq]
      rw [nextKind_squeeze]
      exact Rule.nextKind_afterNewlines rest
    · exact stays newline

end Squeezed

/-- Either all tokens are left, or fewer of them are, even if newlines in a row count once. -/
def Advanced (tokens rest : List Token) : Prop :=
  rest = tokens ∨ rest.length < tokens.length ∧ (squeeze rest).length < (squeeze tokens).length

/-- One rule in two runs, with the same outcome in both up to newlines in a row. -/
inductive Parsed.Squeezed {α : Type} (tokens : List Token) : Parsed α → Parsed α → Prop where
  | ok {result : α} {rest : List Token} (advanced : Advanced tokens rest) :
    Parsed.Squeezed tokens (.ok (result, rest)) (.ok (result, squeeze rest))
  | error {expected : Expectation} {rest : List Token} (advanced : Advanced tokens rest) :
    Parsed.Squeezed tokens (.error ⟨expected, rest⟩) (.error ⟨expected, squeeze rest⟩)

/-- A rule for which newlines in a row are worth one, on at most so many tokens after squeezing. -/
def Rule.Squeezes {α : Type} (length : Nat) (rule : Rule α) : Prop :=
  ∀ tokens, (squeeze tokens).length ≤ length →
    Parsed.Squeezed tokens (rule tokens) (rule (squeeze tokens))

/-- All tokens may be left. -/
theorem Advanced.refl (tokens : List Token) : Advanced tokens tokens := .inl rfl

/-- What has advanced is no longer than it was. -/
theorem Advanced.le {tokens rest : List Token} (advanced : Advanced tokens rest) :
    (squeeze rest).length ≤ (squeeze tokens).length := by
  rcases advanced with rfl | ⟨-, shorter⟩
  · exact Nat.le_refl _
  · exact Nat.le_of_lt shorter

/-- It is shorter in both ways or in none. -/
theorem Advanced.shorter_iff {tokens rest : List Token} (advanced : Advanced tokens rest) :
    rest.length < tokens.length ↔ (squeeze rest).length < (squeeze tokens).length := by
  rcases advanced with rfl | ⟨shorter, shorter'⟩
  · simp
  · exact iff_of_true shorter shorter'

/-- What advances further has advanced. -/
theorem Advanced.trans {tokens middle rest : List Token} (first : Advanced tokens middle)
    (second : Advanced middle rest) : Advanced tokens rest := by
  rcases first with rfl | ⟨first, first'⟩
  · exact second
  · right
    rcases second with rfl | ⟨second, second'⟩
    · exact ⟨first, first'⟩
    · exact ⟨Nat.lt_trans second first, Nat.lt_trans second' first'⟩

namespace Parsed.Squeezed

variable {α β : Type} {tokens middle : List Token} {parsed parsed' : Parsed α}

/-- What was read behind some tokens was read behind fewer. -/
theorem behind (advanced : Advanced tokens middle) (squeezed : Squeezed middle parsed parsed') :
    Squeezed tokens parsed parsed' := by
  cases squeezed with
  | ok further => exact .ok (advanced.trans further)
  | error further => exact .error (advanced.trans further)

end Parsed.Squeezed

namespace Rule.Squeezes

variable {α β : Type} {length : Nat} {rule : Rule α} {kind : TokenKind}

/-- What holds of more tokens holds of fewer. -/
theorem mono {shorter : Nat} (fewer : shorter ≤ length) (squeezes : Squeezes length rule) :
    Squeezes shorter rule :=
  fun tokens bound => squeezes tokens (Nat.le_trans bound fewer)

/-- A result that needs no tokens. -/
theorem pure (result : α) : Squeezes length (Pure.pure result : Rule α) :=
  fun tokens _ => .ok (.refl tokens)

/-- A failure where the rule stands. -/
theorem fail (expected : Expectation) : Squeezes length (Rule.fail expected : Rule α) :=
  fun tokens _ => .error (.refl tokens)

/-- Two rules in a row. -/
theorem bind {next : α → Rule β} (first : Squeezes length rule)
    (nexts : ∀ result, Squeezes length (next result)) : Squeezes length (rule >>= next) := by
  intro tokens bound
  -- The second rule starts where the first one has advanced to, in both runs.
  have start := first tokens bound
  rw [bind_apply, bind_apply]
  generalize rule tokens = parsed, rule (squeeze tokens) = parsed' at start
  cases start with
  | error advanced => exact .error advanced
  | ok advanced =>
    exact (nexts _ _ (Nat.le_trans advanced.le bound)).behind advanced

/-- The same result in other terms. -/
theorem map {told : α → β} (squeezes : Squeezes length rule) :
    Squeezes length (do return told (← rule) : Rule β) :=
  squeezes.bind fun _ => .pure _

/-- Behind a token that is no newline, the tokens have advanced. -/
theorem advanced_cons (token : Token) (other : token.kind ≠ .newline) (rest : List Token) :
    Advanced (token :: rest) rest := by
  right
  rw [squeeze_cons other, List.length_cons, List.length_cons]
  exact ⟨Nat.lt_succ_self _, Nat.lt_succ_self _⟩

/-- After a first token, a rule for the tokens behind it is enough. -/
theorem rest {token : Token} (other : token.kind ≠ .newline) {rest : List Token}
    (squeezes : Squeezes length rule) (bound : (squeeze (token :: rest)).length ≤ length + 1) :
    Parsed.Squeezed (token :: rest) (rule rest) (rule (squeeze rest)) := by
  rw [squeeze_cons other, List.length_cons] at bound
  exact (squeezes rest (Nat.le_of_succ_le_succ bound)).behind (advanced_cons token other rest)

/-- A rule that reads some first tokens, no newlines among them, and otherwise is another rule. -/
theorem of_first (special : TokenKind → Prop) {other : Rule α} (others : Squeezes length other)
    (none : rule [] = other [])
    (same : ∀ token rest, ¬ special token.kind → rule (token :: rest) = other (token :: rest))
    (apart : ¬ special .newline)
    (some : ∀ (kind : TokenKind) (span : Span) (rest : List Token), special kind →
      kind ≠ .newline → (squeeze (⟨kind, span⟩ :: rest)).length ≤ length →
        Parsed.Squeezed (⟨kind, span⟩ :: rest) (rule (⟨kind, span⟩ :: rest))
          (rule (⟨kind, span⟩ :: squeeze rest))) : Squeezes length rule := by
  intro tokens bound
  -- The first token is the same before and after squeezing, if it is no newline.
  cases tokens with
  | nil =>
    have empty := others [] (Nat.zero_le _)
    rwa [squeeze, ← none] at empty
  | cons token rest =>
    by_cases first : special token.kind
    · obtain ⟨kind, span⟩ := token
      have solid : kind ≠ .newline := fun newline => apart (newline ▸ first)
      have whole := some kind span rest first solid bound
      rwa [squeeze_cons solid]
    · have whole := others (token :: rest) bound
      have next := nextKind_squeeze (token :: rest)
      rw [← same token rest first] at whole
      cases left : squeeze (token :: rest) with
      | nil =>
        rw [left, ← none] at whole
        exact whole
      | cons token' rest' =>
        rw [left, nextKind_cons, nextKind_cons] at next
        rw [left, ← same token' rest' (next ▸ first)] at whole
        exact whole

/-- One token of a kind that is no newline. -/
theorem token {expected : Expectation} (solid : kind ≠ .newline) :
    Squeezes length (Rule.token kind expected) := by
  refine .of_first (· = kind) (.fail expected) rfl
    (fun _ _ other => if_neg other) solid.symm ?_
  rintro _ span rest rfl - -
  rw [Rule.token, Rule.token, if_pos rfl, if_pos rfl]
  exact .ok (advanced_cons _ solid rest)

/-- An identifier. -/
theorem identifier {expected : Expectation} : Squeezes length (Rule.identifier expected) := by
  refine .of_first (fun kind => ∃ name, kind = .identifier name) (.fail expected) rfl ?_
    (by simp) ?_
  · rintro ⟨kind, span⟩ rest other
    cases kind with
    | identifier name => exact absurd ⟨name, rfl⟩ other
    | _ => rfl
  · rintro _ span rest ⟨name, rfl⟩ solid -
    exact .ok (advanced_cons _ solid rest)

/-- A token that may be there and is no newline. -/
theorem token? (solid : kind ≠ .newline) : Squeezes length (Rule.token? kind) := by
  refine .of_first (· = kind) (.pure none) rfl (fun _ _ other => if_neg other)
    solid.symm ?_
  rintro _ span rest rfl - -
  rw [Rule.token?, Rule.token?, if_pos rfl, if_pos rfl]
  exact .ok (advanced_cons _ solid rest)

/-- Behind a token that may be there, there is one token fewer if it was. -/
theorem token?_bind {next : Option Token → Rule β} (solid : kind ≠ .newline)
    (absent : Squeezes (length + 1) (next none))
    (present : ∀ token, Squeezes length (next (some token))) :
    Squeezes (length + 1) (Rule.token? kind >>= next) := by
  refine .of_first (· = kind) absent rfl ?_ solid.symm ?_
  · intro token rest other
    simp only [bind_apply, Rule.token?, if_neg other]
  · rintro _ span rest rfl - bound
    simp only [bind_apply, Rule.token?, if_true]
    exact (present _).rest solid bound

/-- A rule described by what could start it. -/
theorem orExpected (squeezes : Squeezes length rule) (expected : Expectation) :
    Squeezes length (rule.orExpected expected) := by
  intro tokens bound
  have read := squeezes tokens bound
  unfold Rule.orExpected
  generalize rule tokens = parsed, rule (squeeze tokens) = parsed' at read
  -- Whether the rule failed where it stands is the same in both runs.
  cases read with
  | ok advanced => exact .ok advanced
  | error advanced =>
    simp only [advanced.shorter_iff]
    split
    · exact .error advanced
    · exact .error (.refl tokens)

/-- A rule that may be absent. -/
theorem optional (squeezes : Squeezes length rule) : Squeezes length rule.optional := by
  intro tokens bound
  have read := squeezes tokens bound
  unfold Rule.optional
  generalize rule tokens = parsed, rule (squeeze tokens) = parsed' at read
  -- Whether the rule failed where it stands is the same in both runs.
  cases read with
  | ok advanced => exact .ok advanced
  | error advanced =>
    simp only [advanced.shorter_iff]
    split
    · exact .error advanced
    · exact .ok (.refl tokens)

/-- A repetition. -/
theorem many {item : Rule (Option α)} (consumes : Consumes item) (idle : item [] = .ok (none, []))
    (items : Squeezes length item) : Squeezes length (Rule.many item) := by
  -- The induction goes along the rounds, each of which but the last takes a token.
  intro tokens
  induction sized : tokens.length using Nat.strongRecOn generalizing tokens with
  | ind size ih =>
    intro bound
    have read := items tokens bound
    have shorter := consumes tokens
    rw [many_eq consumes idle, bind_apply, bind_apply]
    generalize item tokens = parsed, item (squeeze tokens) = parsed' at read shorter
    cases read with
    | error advanced => exact .error advanced
    | @ok result rest advanced =>
      cases result with
      | none => exact .ok advanced
      | some result =>
        have others := ih rest.length (sized ▸ shorter result rest rfl) rest rfl
          (Nat.le_trans advanced.le bound)
        have more : Parsed.Squeezed rest
            ((do return result :: (← Rule.many item) : Rule (List α)) rest)
            ((do return result :: (← Rule.many item) : Rule (List α)) (squeeze rest)) := by
          rw [bind_apply, bind_apply]
          generalize Rule.many item rest = parsed, Rule.many item (squeeze rest) = parsed' at others
          cases others with
          | ok further => exact .ok further
          | error further => exact .error further
        exact more.behind advanced

/-- Behind newlines, tokens have advanced. -/
theorem advanced_afterNewlines (tokens : List Token) :
    Advanced tokens (Rule.afterNewlines tokens) := by
  cases tokens with
  | nil => exact .refl []
  | cons token rest =>
    rw [Rule.afterNewlines]
    split
    · rename_i newline
      obtain ⟨last, -, same⟩ := squeeze_newline newline rest
      right
      rw [same, List.length_cons, List.length_cons]
      exact ⟨Nat.lt_succ_of_le (length_afterNewlines_le rest), Nat.lt_succ_self _⟩
    · exact .refl _

/-- Newlines that are skipped. -/
theorem newlines : Squeezes length Rule.newlines := by
  intro tokens bound
  have advanced := advanced_afterNewlines tokens
  simp only [Rule.newlines, afterNewlines_squeeze, advanced.shorter_iff]
  exact .ok advanced

/-- A newline that may be there, and behind it a rule that skips all others. -/
theorem token?_newline_bind {next : Option Token → Rule β} {block : Rule β}
    (present : ∀ token, next (some token) = block)
    (skips : ∀ tokens, block tokens = block (Rule.afterNewlines tokens))
    (blocks : Squeezes length block) (absent : Squeezes length (next none)) :
    Squeezes length (Rule.token? .newline >>= next) := by
  intro tokens bound
  cases tokens with
  | nil => exact absent [] bound
  | cons token rest =>
    -- A run of newlines is entered at its first one, or at the one that is left of it.
    by_cases newline : token.kind = .newline
    · obtain ⟨last, kind, same⟩ := squeeze_newline newline rest
      have advanced := advanced_afterNewlines (token :: rest)
      rw [Rule.afterNewlines, if_pos newline] at advanced
      rw [same]
      simp only [bind_apply, Rule.token?, if_pos newline, if_pos kind, present]
      rw [skips rest]
      exact (blocks _ (Nat.le_trans advanced.le bound)).behind advanced
    · have whole := absent (token :: rest) bound
      rw [squeeze_cons newline] at whole ⊢
      simp only [bind_apply, Rule.token?, if_neg newline]
      exact whole

/-- A newline, and behind it a rule that skips all others. -/
theorem token_newline_bind {expected : Expectation} {block : Rule β}
    (skips : ∀ tokens, block tokens = block (Rule.afterNewlines tokens))
    (blocks : Squeezes length block) :
    Squeezes length (Rule.token .newline expected >>= fun _ => block) := by
  -- A newline that must be there is one that may be, and a failure without it.
  have same : (Rule.token .newline expected >>= fun _ => block) =
      Rule.token? .newline >>= fun found => found.elim (Rule.fail expected) fun _ => block := by
    funext tokens
    cases tokens with
    | nil => rfl
    | cons token rest =>
      by_cases newline : token.kind = .newline
      · simp only [bind_apply, Rule.token, Rule.token?, if_pos newline, Option.elim_some]
      · simp only [bind_apply, Rule.token, Rule.token?, if_neg newline]
        rfl
  rw [same]
  exact token?_newline_bind (fun _ => rfl) skips blocks (.fail expected)

/-- An operator, and the operand behind it. -/
theorem operation {operand : Rule Node} (operator? : TokenKind → Option BinaryOperator)
    (apart : operator? .newline = none) (operands : Squeezes length operand) :
    Squeezes (length + 1) (Rule.operation operand operator?) := by
  refine .of_first (fun kind => operator? kind ≠ none) (.pure none) rfl ?_
    (by simp [apart]) ?_
  · intro token rest other
    rw [Rule.operation, not_not.mp other]
    rfl
  · intro kind span rest found solid bound
    obtain ⟨operator, same⟩ := Option.ne_none_iff_exists'.mp found
    simp only [Rule.operation, same]
    exact operands.map.rest solid bound

/-- Operands between operators. -/
theorem chain {operand : Rule Node} (operator? : TokenKind → Option BinaryOperator)
    (apart : operator? .newline = none) (shrinks : operand.Shrinks)
    (operands : Squeezes (length + 1) operand) :
    Squeezes (length + 1) (Rule.chain operand operator?) :=
  operands.bind fun _ => (many (consumes_operation shrinks) rfl
    ((operands.mono (Nat.le_succ _)).operation operator? apart)).map

/-- What comes behind a comma. -/
theorem afterComma {item : Rule α} (items : Squeezes length item) :
    Squeezes length (Grammar.afterComma item) := by
  refine (token? (by simp)).bind fun comma => ?_
  cases comma with
  | none => exact .pure none
  | some _ => exact items.map

/-- The name of a function. -/
theorem functionName : Squeezes length Grammar.functionName := by
  have opened (expected : Expectation) (name : Option String) : Squeezes length
      (do let _ ← Rule.symbol .leftParen expected; return name : Rule (Option String)) :=
    (token (by simp)).map
  -- A name, if there is one, comes before the parenthesis.
  refine .of_first (fun kind => ∃ name, kind = .identifier name)
    (opened .identifierOrParameters none) rfl ?_ (by simp) ?_
  · rintro ⟨kind, span⟩ rest other
    cases kind with
    | identifier name => exact absurd ⟨name, rfl⟩ other
    | _ => rfl
  · rintro _ span rest ⟨name, rfl⟩ solid bound
    exact (opened .parameters (some name)).rest solid (Nat.le_succ_of_le bound)

/-- The parameters of a function. -/
theorem parameters : Squeezes length Grammar.parameters := by
  have closed : Squeezes length
      (do let _ ← Rule.symbol .rightParen .firstParameter; return [] : Rule (List String)) :=
    (token (by simp)).map
  -- Without a first parameter the list has to be closed.
  refine .of_first (fun kind => ∃ name, kind = .identifier name) closed rfl ?_
    (by simp) ?_
  · rintro ⟨kind, span⟩ rest other
    cases kind with
    | identifier name => exact absurd ⟨name, rfl⟩ other
    | _ => rfl
  · rintro _ span rest ⟨name, rfl⟩ solid bound
    have more : Squeezes length
        (do
          let more ← Rule.many (Grammar.afterComma (Rule.identifier .identifier))
          let _ ← Rule.symbol .rightParen .nextArgument
          return name :: more.map Prod.fst : Rule (List String)) :=
      (many (consumes_afterComma (shrinks_identifier _)) rfl identifier.afterComma).bind fun _ =>
        (token (by simp)).map
    exact more.rest solid (Nat.le_succ_of_le bound)

end Rule.Squeezes

namespace Grammar

/-- The rules that others come back to take newlines in a row for one, on at most so many tokens. -/
structure Squeezes (length : Nat) : Prop where
  expression : Rule.Squeezes length full.expression
  comparison : Rule.Squeezes length full.comparison
  factor : Rule.Squeezes length full.factor
  statement : Rule.Squeezes length full.statement
  statements : Rule.Squeezes length full.statements

/-- Statements skip the newlines before them. -/
theorem statements_afterNewlines (tokens : List Token) :
    full.statements tokens = full.statements (Rule.afterNewlines tokens) := by
  have again := Rule.afterNewlines_eq (Rule.nextKind_afterNewlines tokens)
  simp only [full_statements, statementsRule, Rule.bind_apply, Rule.newlines, again]

/-- So does what goes on behind statements. -/
theorem statements_bind_afterNewlines {α : Type} (next : Node → Rule α) (tokens : List Token) :
    (full.statements >>= next) tokens = (full.statements >>= next) (Rule.afterNewlines tokens) := by
  rw [Rule.bind_apply, Rule.bind_apply, ← statements_afterNewlines]

namespace Squeezes

variable {length : Nat}

/-- Expressions between commas. -/
theorem delimited (squeezes : Squeezes length) (closing : Symbol) (first next : Expectation) :
    Rule.Squeezes length (full.delimited closing first next) := by
  refine (Rule.Squeezes.token? (by simp)).bind fun close => ?_
  cases close with
  | some close => exact .pure _
  | none =>
    refine (squeezes.expression.orExpected first).bind fun item => ?_
    refine (Rule.Squeezes.many (Rule.consumes_afterComma shrinks_expression) rfl
      squeezes.expression.afterComma).bind fun more => ?_
    exact (Rule.Squeezes.token (by simp)).map

/-- Bodies: behind a newline all others are skipped. -/
theorem body (squeezes : Squeezes length) : Rule.Squeezes length full.body :=
  Rule.Squeezes.token?_newline_bind (fun _ => rfl) (statements_bind_afterNewlines _)
    squeezes.statements.map squeezes.statement.map

/-- The ends of bodies. -/
theorem bodyEnd (form : BodyForm) (expected : Expectation) :
    Rule.Squeezes length (Grammar.bodyEnd form expected) := by
  cases form with
  | inline => exact .pure ()
  | block => exact (Rule.Squeezes.token (by simp)).map

/-- Bodies with their ends. -/
theorem closedBody (squeezes : Squeezes length) : Rule.Squeezes length full.closedBody :=
  squeezes.body.bind fun (_, form) => (bodyEnd form .endWord).map

/-- Conditions with their bodies. -/
theorem branch (squeezes : Squeezes length) : Rule.Squeezes length full.branch :=
  squeezes.expression.bind fun _ => (Rule.Squeezes.token (by simp)).bind fun _ =>
    squeezes.body.map

/-- Further branches. -/
theorem anotherBranch (squeezes : Squeezes length) : Rule.Squeezes length full.anotherBranch := by
  refine (Rule.Squeezes.token? (by simp)).bind fun word => ?_
  cases word with
  | none => exact .pure none
  | some _ => exact squeezes.branch.map

/-- What comes behind the last branch. -/
theorem otherwise (squeezes : Squeezes length) (form : BodyForm) :
    Rule.Squeezes length (full.otherwise form) := by
  refine (Rule.Squeezes.token? (by simp)).bind fun word => ?_
  cases word with
  | some _ => exact squeezes.closedBody.map
  | none => exact (bodyEnd form .nextBranch).map

/-- Conditionals. -/
theorem conditional (squeezes : Squeezes length) (word : Span) :
    Rule.Squeezes length (full.conditional word) :=
  squeezes.branch.bind fun _ =>
    (Rule.Squeezes.many consumes_anotherBranch rfl squeezes.anotherBranch).bind fun _ =>
      (squeezes.otherwise _).map

/-- Steps of counted loops. -/
theorem step (squeezes : Squeezes length) : Rule.Squeezes length full.step := by
  refine (Rule.Squeezes.token? (by simp)).bind fun word => ?_
  cases word with
  | some _ => exact squeezes.expression.map
  | none => exact .pure none

/-- Counted loops. -/
theorem forLoop (squeezes : Squeezes length) : Rule.Squeezes length full.forLoop := by
  have word (kind : TokenKind) (expected : Expectation) (solid : kind ≠ .newline) :
      Rule.Squeezes length (Rule.token kind expected) := .token solid
  refine Rule.Squeezes.identifier.bind fun _ => ?_
  refine (word _ _ (by simp)).bind fun _ => squeezes.expression.bind fun _ => ?_
  refine (word _ _ (by simp)).bind fun _ => squeezes.expression.bind fun _ => ?_
  exact squeezes.step.bind fun _ => (word _ _ (by simp)).bind fun _ => squeezes.closedBody.map

/-- Conditional loops. -/
theorem whileLoop (squeezes : Squeezes length) : Rule.Squeezes length full.whileLoop :=
  squeezes.expression.bind fun _ => (Rule.Squeezes.token (by simp)).bind fun _ =>
    squeezes.closedBody.map

/-- Bodies of functions: a block starts with a newline, and skips all others. -/
theorem functionBody (squeezes : Squeezes length) : Rule.Squeezes length full.functionBody := by
  refine (Rule.Squeezes.token? (by simp)).bind fun arrow => ?_
  cases arrow with
  | some _ => exact squeezes.expression.map
  | none =>
    refine .token_newline_bind (statements_bind_afterNewlines _) ?_
    exact squeezes.statements.bind fun _ => (Rule.Squeezes.token (by simp)).map

/-- Functions. -/
theorem function (squeezes : Squeezes length) (word : Span) :
    Rule.Squeezes length (full.function word) :=
  Rule.Squeezes.functionName.bind fun _ => Rule.Squeezes.parameters.bind fun _ =>
    squeezes.functionBody.map

/-- Expressions between parentheses. -/
theorem parenthesised (squeezes : Squeezes length) : Rule.Squeezes length full.parenthesised :=
  squeezes.expression.bind fun _ => (Rule.Squeezes.token (by simp)).map

/-- Lists. -/
theorem list (squeezes : Squeezes length) (bracket : Span) :
    Rule.Squeezes length (full.list bracket) :=
  (squeezes.delimited _ _ _).map

/-- Atoms. -/
theorem atom (squeezes : Squeezes length) : Rule.Squeezes (length + 1) full.atom := by
  -- The kind of the first token decides which atom it is.
  refine .of_first _ (.fail .atom) rfl (fun _ _ other => atom_eq_fail other)
    (by simp [TokenKind.StartsAtom]) fun kind span rest starts solid bound => ?_
  have advanced := Rule.Squeezes.advanced_cons ⟨kind, span⟩ solid rest
  cases kind with
  | int | float | text | identifier => exact .ok advanced
  | keyword word =>
    cases word with
    | ifWord => exact (squeezes.conditional span).rest solid bound
    | forWord => exact squeezes.forLoop.rest solid bound
    | whileWord => exact squeezes.whileLoop.rest solid bound
    | funWord => exact (squeezes.function span).rest solid bound
    | _ => simp [TokenKind.StartsAtom] at starts
  | symbol sign =>
    cases sign with
    | leftParen => exact squeezes.parenthesised.rest solid bound
    | leftBracket => exact (squeezes.list span).rest solid bound
    | _ => simp [TokenKind.StartsAtom] at starts
  | _ => exact starts.elim

/-- Lists of arguments. -/
theorem arguments (squeezes : Squeezes length) : Rule.Squeezes (length + 1) full.arguments :=
  .token?_bind (by simp) (.pure none) fun _ => (squeezes.delimited _ _ _).map

/-- Calls. -/
theorem call (squeezes : Squeezes length) : Rule.Squeezes (length + 1) full.call :=
  squeezes.atom.bind fun _ => (Rule.Squeezes.many consumes_arguments rfl squeezes.arguments).map

/-- Powers. -/
theorem power (squeezes : Squeezes length) : Rule.Squeezes (length + 1) full.power :=
  squeezes.call.bind fun _ => (Rule.Squeezes.many (Rule.consumes_operation shrinks_factor) rfl
    (squeezes.factor.operation _ rfl)).map

/-- An operator in front of its operand. -/
theorem prefixed {operand : Rule Node} (operands : Rule.Squeezes length operand)
    (operator : UnaryOperator) (sign : Span) :
    Rule.Squeezes length (Grammar.prefixed operator sign operand) :=
  operands.map

/-- Factors. -/
theorem factorRule (squeezes : Squeezes length) :
    Rule.Squeezes (length + 1) full.factorRule := by
  -- Only a sign makes a difference.
  refine .of_first (fun kind => kind = .symbol .minus ∨ kind = .symbol .plus)
    squeezes.power rfl (fun _ _ other => factorRule_eq (not_or.mp other).1 (not_or.mp other).2)
    (by simp) ?_
  rintro _ span rest (rfl | rfl) solid bound
  · exact (prefixed squeezes.factor .negate span).rest solid bound
  · exact (prefixed squeezes.factor .plus span).rest solid bound

/-- Products. -/
theorem multiplicative (squeezes : Squeezes length) :
    Rule.Squeezes (length + 1) full.multiplicative :=
  .chain _ rfl shrinks_factorRule squeezes.factorRule

/-- Sums. -/
theorem additive (squeezes : Squeezes length) : Rule.Squeezes (length + 1) full.additive :=
  .chain _ rfl shrinks_multiplicative squeezes.multiplicative

/-- Comparisons and their negations. -/
theorem comparisonRule (squeezes : Squeezes length) :
    Rule.Squeezes (length + 1) full.comparisonRule := by
  have compared : Rule.Squeezes (length + 1) full.compared :=
    .chain _ rfl shrinks_additive squeezes.additive
  refine .of_first (· = .keyword .notWord) (compared.orExpected .comparison) rfl
    (fun _ _ other => comparisonRule_eq other) (by simp) ?_
  rintro _ span rest rfl solid bound
  exact (prefixed squeezes.comparison .not span).rest solid bound

/-- Assignments. -/
theorem assignment (squeezes : Squeezes length) : Rule.Squeezes length full.assignment :=
  Rule.Squeezes.identifier.bind fun _ => (Rule.Squeezes.token (by simp)).bind fun _ =>
    squeezes.expression.map

/-- Expressions. -/
theorem expressionRule (squeezes : Squeezes length) :
    Rule.Squeezes (length + 1) full.expressionRule := by
  have logical : Rule.Squeezes (length + 1) full.logical :=
    .chain _ rfl shrinks_comparisonRule squeezes.comparisonRule
  refine .of_first (· = .keyword .varWord) (logical.orExpected .expression) rfl
    (fun _ _ other => expressionRule_eq other) (by simp) ?_
  rintro _ span rest rfl solid bound
  exact squeezes.assignment.rest solid bound

/-- What functions return. -/
theorem returning (squeezes : Squeezes length) (word : Span) :
    Rule.Squeezes length (full.returning word) :=
  squeezes.expression.optional.map

/-- Statements. -/
theorem statementRule (squeezes : Squeezes length) :
    Rule.Squeezes (length + 1) full.statementRule := by
  -- Only the words of signals start other statements than expressions.
  refine .of_first Signals (squeezes.expressionRule.orExpected .statement) rfl
    (fun _ _ other => statementRule_eq other) (by simp [Signals]) ?_
  intro kind span rest signals solid bound
  have advanced := Rule.Squeezes.advanced_cons ⟨kind, span⟩ solid rest
  simp only [Signals, List.mem_cons, List.not_mem_nil, or_false] at signals
  rcases signals with rfl | rfl | rfl
  · exact (squeezes.returning span).rest solid bound
  · exact .ok advanced
  · exact .ok advanced

/-- Further statements. -/
theorem anotherStatement (squeezes : Squeezes length) :
    Rule.Squeezes (length + 1) full.anotherStatement := by
  refine Rule.Squeezes.newlines.bind fun found => ?_
  cases found with
  | true => exact squeezes.statementRule.optional
  | false => exact .pure none

/-- Sequences of statements. -/
theorem statementsRule (squeezes : Squeezes length) :
    Rule.Squeezes (length + 1) full.statementsRule :=
  Rule.Squeezes.newlines.bind fun _ => squeezes.statementRule.bind fun _ =>
    (Rule.Squeezes.many consumes_anotherStatement rfl squeezes.anotherStatement).map

end Squeezes

/-- Without tokens every rule fails where it stands. -/
theorem squeezes_zero {rule : Rule Node} {expected : Expectation}
    (none : rule [] = .error ⟨expected, []⟩) : Rule.Squeezes 0 rule := by
  intro tokens bound
  cases tokens with
  | nil =>
    rw [squeeze, none]
    exact .error (.refl [])
  | cons token rest =>
    -- Even of newlines one is left.
    exfalso
    by_cases newline : token.kind = .newline
    · obtain ⟨last, -, same⟩ := squeeze_newline newline rest
      rw [same, List.length_cons] at bound
      omega
    · rw [squeeze_cons newline, List.length_cons] at bound
      omega

/-- The whole grammar takes newlines in a row for one. -/
theorem full_squeezes : ∀ length, Squeezes length
  | 0 => {
      expression := squeezes_zero rfl
      comparison := squeezes_zero rfl
      factor := squeezes_zero rfl
      statement := squeezes_zero rfl
      statements := squeezes_zero rfl }
  | length + 1 => {
      expression := full_expression ▸ (full_squeezes length).expressionRule
      comparison := full_comparison ▸ (full_squeezes length).comparisonRule
      factor := full_factor ▸ (full_squeezes length).factorRule
      statement := full_statement ▸ (full_squeezes length).statementRule
      statements := full_statements ▸ (full_squeezes length).statementsRule }

end Grammar

/-- Programs take newlines in a row for one. -/
theorem parseProgram_squeezed (tokens : List Token) :
    Parsed.Squeezed tokens (parseProgram tokens) (parseProgram (squeeze tokens)) := by
  have squeezes := Grammar.full_squeezes (squeeze tokens).length
  rw [parseProgram_eq, parseProgram_eq]
  exact (squeezes.statements.bind fun _ => (Rule.Squeezes.token (by simp)).map) tokens
    (Nat.le_refl _)

end Scriptlet
