import Scriptlet.Proofs.Syntax.Advance
import Mathlib.Logic.Function.Iterate

/-!
The parser comes to an end on every text. Each rule takes a token before it comes back to itself,
and so does each round of a loop, so the tokens that are left bound both how deep rules nest and how
long loops go on.
-/

namespace Scriptlet

namespace Grammar

/-- The grammar whose rules come back to those of another one. -/
def next (inner : Grammar) : Grammar where
  expression := inner.expressionRule
  comparison := inner.comparisonRule
  factor := inner.factorRule
  statement := inner.statementRule
  statements := inner.statementsRule

/-- The rules of the full grammar come back to the full grammar. -/
theorem next_full : full.next = full := by
  -- Each of the five rules is its own definition.
  rw [next, ← full_expression, ← full_comparison, ← full_factor, ← full_statement,
    ← full_statements]

/-- Two grammars whose rules are in step from some index of tokens that end once. -/
structure InStep (tokens : List Token) (first : Nat) (grammar grammar' : Grammar) : Prop where
  ends : EndsOnce tokens
  expression : Rule.InStep tokens first (fun _ => 1) grammar.expression grammar'.expression
  comparison : Rule.InStep tokens first (fun _ => 1) grammar.comparison grammar'.comparison
  factor : Rule.InStep tokens first (fun _ => 1) grammar.factor grammar'.factor
  statement : Rule.InStep tokens first (fun _ => 1) grammar.statement grammar'.statement
  statements : Rule.InStep tokens first (fun _ => 1) grammar.statements grammar'.statements

/-- The rule for the operands of the operators of a level. -/
def operand (grammar : Grammar) : Level → Rule Node
  | .logical => grammar.comparisonRule
  | .comparison => grammar.additive
  | .additive => grammar.multiplicative
  | .multiplicative => grammar.factorRule
  | .power => grammar.factor

namespace InStep

variable {tokens : List Token} {first : Nat} {grammar grammar' : Grammar}

/-- Grammars in step are so from every later index on. -/
theorem mono {later : Nat} (alike : grammar.InStep tokens first grammar')
    (further : first ≤ later) : grammar.InStep tokens later grammar' where
  ends := alike.ends
  expression := alike.expression.mono further fun _ => Nat.le_refl _
  comparison := alike.comparison.mono further fun _ => Nat.le_refl _
  factor := alike.factor.mono further fun _ => Nat.le_refl _
  statement := alike.statement.mono further fun _ => Nat.le_refl _
  statements := alike.statements.mono further fun _ => Nat.le_refl _

/-- One more item between commas. -/
theorem afterComma (alike : grammar.InStep tokens (first + 1) grammar') :
    Rule.InRounds tokens first (· = .symbol .comma) (Grammar.afterComma grammar.expression)
      (Grammar.afterComma grammar'.expression) :=
  .whenNext alike.ends (by simp) (alike.expression.mono (Nat.le_refl _) fun _ => Nat.zero_le _)

section Behind

/-! Rules that are read behind a first token come back to the grammar where they begin. -/

variable (alike : grammar.InStep tokens first grammar')

include alike

/-- Expressions between commas up to a closing symbol. -/
theorem delimited (closing : Symbol) (some more : Expectation) :
    Rule.InStep tokens first (fun _ => 1) (grammar.delimited closing some more)
      (grammar'.delimited closing some more) := by
  -- Either the closing symbol is taken, or the first expression takes a token.
  refine .token?_bind alike.ends (by simp) ?_ fun close => .pure rfl
  refine (alike.expression.orExpected some).bind fun item => ?_
  refine (alike.mono (by omega)).afterComma.inStep.many.bind fun others => ?_
  exact (Rule.InStep.symbol alike.ends closing more).map fun _ => Nat.zero_le _

/-- A body. -/
theorem body : Rule.InStep tokens first (fun _ => 1) grammar.body grammar'.body := by
  -- A statement takes a token by itself, and a block does so behind the newline.
  refine .token?_bind alike.ends (by simp) ?_ fun newline => ?_
  · exact alike.statement.map fun _ => Nat.le_refl _
  · exact (alike.statements.mono (Nat.le_succ _) fun _ => Nat.zero_le 1).map fun _ => Nat.le_refl _

omit alike in
/-- The end of a body takes a word or nothing. -/
theorem bodyEnd (ends : EndsOnce tokens) (form : BodyForm) (expected : Expectation) :
    Rule.InStep tokens first (fun _ => 0) (Grammar.bodyEnd form expected)
      (Grammar.bodyEnd form expected) := by
  cases form with
  | inline => exact .pure rfl
  | block => exact (Rule.InStep.keyword ends .endWord expected).map fun _ => Nat.zero_le _

/-- A body with its end. -/
theorem closedBody :
    Rule.InStep tokens first (fun _ => 1) grammar.closedBody grammar'.closedBody := by
  refine alike.body.bind fun (body, form) => ?_
  exact (bodyEnd alike.ends form .endWord).map fun _ => Nat.le_refl _

/-- One condition and its body. -/
theorem branch : Rule.InStep tokens first (fun _ => 1) grammar.branch grammar'.branch := by
  refine alike.expression.bind fun condition => ?_
  refine (Rule.InStep.keyword alike.ends .thenWord .thenWord).bind fun word => ?_
  exact (alike.mono (by omega)).body.map fun _ => Nat.zero_le _

omit alike in
/-- One more branch. -/
theorem anotherBranch (alike : grammar.InStep tokens (first + 1) grammar') :
    Rule.InRounds tokens first (· = .keyword .elifWord) grammar.anotherBranch
      grammar'.anotherBranch :=
  .whenNext alike.ends (by simp) (alike.branch.mono (Nat.le_refl _) fun _ => Nat.zero_le _)

/-- What comes after the last branch. -/
theorem otherwise (form : BodyForm) :
    Rule.InStep tokens first (fun _ => 0) (grammar.otherwise form) (grammar'.otherwise form) := by
  refine .token?_bind alike.ends (by simp) ?_ fun word => ?_
  · exact (bodyEnd alike.ends form .nextBranch).map fun _ => Nat.le_refl _
  · exact (alike.mono (Nat.le_succ _)).closedBody.map fun _ => Nat.zero_le _

/-- A conditional after its first word. -/
theorem conditional (word : Span) :
    Rule.InStep tokens first (fun _ => 1) (grammar.conditional word)
      (grammar'.conditional word) := by
  refine alike.branch.bind fun head => ?_
  refine (alike.mono (by omega)).anotherBranch.inStep.many.bind fun more => ?_
  exact ((alike.mono (by omega)).otherwise _).map fun _ => Nat.le_refl _

/-- The step of a counted loop. -/
theorem step : Rule.InStep tokens first (fun _ => 0) grammar.step grammar'.step := by
  refine .token?_bind alike.ends (by simp) (.pure rfl) fun word => ?_
  exact (alike.expression.mono (Nat.le_succ _) fun _ => Nat.zero_le 1).map fun _ => Nat.le_refl _

/-- A counted loop after its first word. -/
theorem forLoop : Rule.InStep tokens first (fun _ => 1) grammar.forLoop grammar'.forLoop := by
  refine (Rule.InStep.identifier alike.ends .identifier).bind fun (name, span) => ?_
  refine (Rule.InStep.symbol alike.ends .assign .assign).bind fun sign => ?_
  refine (alike.mono (by omega)).expression.bind fun start => ?_
  refine (Rule.InStep.keyword alike.ends .toWord .toWord).bind fun word => ?_
  refine (alike.mono (by omega)).expression.bind fun bound => ?_
  refine (alike.mono (by omega)).step.bind fun step => ?_
  refine (Rule.InStep.keyword alike.ends .thenWord .thenWord).bind fun word => ?_
  exact (alike.mono (by omega)).closedBody.map fun _ => Nat.zero_le _

/-- A conditional loop after its first word. -/
theorem whileLoop :
    Rule.InStep tokens first (fun _ => 1) grammar.whileLoop grammar'.whileLoop := by
  refine alike.expression.bind fun condition => ?_
  refine (Rule.InStep.keyword alike.ends .thenWord .thenWord).bind fun word => ?_
  exact (alike.mono (by omega)).closedBody.map fun _ => Nat.zero_le _

omit alike in
/-- The name of a function and the parenthesis after it. -/
theorem functionName (ends : EndsOnce tokens) :
    Rule.InStep tokens first (fun _ => 1) Grammar.functionName Grammar.functionName := by
  have opened (expected : Expectation) (name : Option String) {first : Nat} :
      Rule.InStep tokens first (fun _ => 1)
        (do let _ ← Rule.symbol .leftParen expected; return name : Rule (Option String))
        (do let _ ← Rule.symbol .leftParen expected; return name) :=
    (Rule.InStep.symbol ends .leftParen expected).map fun _ => Nat.le_refl _
  -- Only an identifier makes a difference.
  refine .of_first ends fun kind span start from_ inside whole more => ?_
  have unnamed := opened .identifierOrParameters none start (Nat.le_refl _) inside
  rw [whole] at unnamed
  cases kind with
  | identifier name =>
    exact (opened .parameters (some name)).behind (Nat.le_refl _) (more (by simp)) fun _ =>
      Nat.le_succ _
  | _ => exact unnamed

omit alike in
/-- One more parameter. -/
theorem anotherParameter (ends : EndsOnce tokens) : Rule.InRounds tokens first (· = .symbol .comma)
    (Grammar.afterComma (Rule.identifier .identifier))
    (Grammar.afterComma (Rule.identifier .identifier)) :=
  .whenNext ends (by simp)
    ((Rule.InStep.identifier ends .identifier).mono (Nat.le_succ first) fun _ => Nat.zero_le _)

omit alike in
/-- The parameters of a function, and the parenthesis that closes them. -/
theorem parameters (ends : EndsOnce tokens) :
    Rule.InStep tokens first (fun _ => 1) Grammar.parameters Grammar.parameters := by
  have closed {first : Nat} : Rule.InStep tokens first (fun _ => 1)
      (do let _ ← Rule.symbol .rightParen .firstParameter; return [] : Rule (List String))
      (do let _ ← Rule.symbol .rightParen .firstParameter; return []) :=
    (Rule.InStep.symbol ends .rightParen .firstParameter).map fun _ => Nat.le_refl _
  have others (head : String) {first : Nat} : Rule.InStep tokens first (fun _ => 1)
      (do
        let more ← Rule.many (Grammar.afterComma (Rule.identifier .identifier))
        let _ ← Rule.symbol .rightParen .nextArgument
        return head :: more.map Prod.fst : Rule (List String))
      (do
        let more ← Rule.many (Grammar.afterComma (Rule.identifier .identifier))
        let _ ← Rule.symbol .rightParen .nextArgument
        return head :: more.map Prod.fst) := by
    refine (anotherParameter ends).inStep.many.bind fun more => ?_
    exact (Rule.InStep.symbol ends .rightParen .nextArgument).map fun _ => Nat.le_refl _
  -- Only an identifier makes a difference.
  refine .of_first ends fun kind span start from_ inside whole more => ?_
  have none := closed start (Nat.le_refl _) inside
  rw [whole] at none
  cases kind with
  | identifier name =>
    exact (others name).behind (Nat.le_refl _) (more (by simp)) fun _ => Nat.le_succ _
  | _ => exact none

/-- The body of a function. -/
theorem functionBody :
    Rule.InStep tokens first (fun _ => 1) grammar.functionBody grammar'.functionBody := by
  -- The arrow or the newline is taken before the grammar is come back to.
  refine .token?_bind alike.ends (by simp) ?_ fun arrow => ?_
  · refine (Rule.InStep.token alike.ends .functionBody (by simp)).bind fun newline => ?_
    refine (alike.mono (by omega)).statements.bind fun body => ?_
    exact (Rule.InStep.keyword alike.ends .endWord .endWord).map fun _ => Nat.zero_le _
  · exact (alike.mono (Nat.le_succ _)).expression.map fun _ => Nat.zero_le _

/-- A function after its first word. -/
theorem function (word : Span) :
    Rule.InStep tokens first (fun _ => 1) (grammar.function word) (grammar'.function word) := by
  refine (functionName alike.ends).bind fun name => ?_
  refine (parameters alike.ends).bind fun names => ?_
  exact (alike.mono (by omega)).functionBody.map fun _ => Nat.zero_le _

/-- An expression between parentheses, after the first of them. -/
theorem parenthesised :
    Rule.InStep tokens first (fun _ => 1) grammar.parenthesised grammar'.parenthesised := by
  refine alike.expression.bind fun inner => ?_
  exact (Rule.InStep.symbol alike.ends .rightParen .closingParenthesis).map fun _ => Nat.zero_le _

/-- A list after its opening bracket. -/
theorem list (bracket : Span) :
    Rule.InStep tokens first (fun _ => 1) (grammar.list bracket) (grammar'.list bracket) :=
  (alike.delimited .rightBracket .firstElement .nextElement).map fun _ => Nat.le_refl _

omit alike in
/-- An operand behind the operator that stands before it. -/
theorem prefixed {operand operand' : Rule Node} (operator : UnaryOperator) (sign : Span)
    (operands : Rule.InStep tokens first (fun _ => 1) operand operand') :
    Rule.InStep tokens first (fun _ => 1) (Grammar.prefixed operator sign operand)
      (Grammar.prefixed operator sign operand') :=
  operands.map fun _ => Nat.le_refl _

/-- An assignment after its first word. -/
theorem assignment :
    Rule.InStep tokens first (fun _ => 1) grammar.assignment grammar'.assignment := by
  refine (Rule.InStep.identifier alike.ends .identifier).bind fun (name, span) => ?_
  refine (Rule.InStep.symbol alike.ends .assign .assign).bind fun sign => ?_
  exact (alike.mono (by omega)).expression.map fun _ => Nat.zero_le _

/-- What a function returns, after the first word. -/
theorem returning (word : Span) :
    Rule.InStep tokens first (fun _ => 0) (grammar.returning word) (grammar'.returning word) :=
  alike.expression.optional.map fun _ => Nat.zero_le _

end Behind

section Entered

/-! Rules that are entered at their first token come back to the grammar behind it only. -/

variable (alike : grammar.InStep tokens (first + 1) grammar')

include alike

/-- The smallest expressions. -/
theorem atom : Rule.InStep tokens first (fun _ => 1) grammar.atom grammar'.atom := by
  -- One case for each token that may come first; it is taken before anything else is read.
  refine .of_first alike.ends fun kind span start from_ inside whole more => ?_
  have fails : Rule.InStepAt tokens start (fun _ => 1)
      (Rule.fail .atom (⟨kind, span⟩ :: tokens.drop (start + 1)) : Parsed Node)
      (Rule.fail .atom (⟨kind, span⟩ :: tokens.drop (start + 1))) := .fail whole inside
  cases kind with
  | int | float | text | identifier => exact .one (more (by simp)) (Nat.le_refl _)
  | symbol symbol =>
    cases symbol with
    | leftParen => exact alike.parenthesised.behind from_ (more (by simp)) fun _ => Nat.le_succ _
    | leftBracket => exact (alike.list span).behind from_ (more (by simp)) fun _ => Nat.le_succ _
    | _ => exact fails
  | keyword word =>
    cases word with
    | ifWord => exact (alike.conditional span).behind from_ (more (by simp)) fun _ => Nat.le_succ _
    | forWord => exact alike.forLoop.behind from_ (more (by simp)) fun _ => Nat.le_succ _
    | whileWord => exact alike.whileLoop.behind from_ (more (by simp)) fun _ => Nat.le_succ _
    | funWord => exact (alike.function span).behind from_ (more (by simp)) fun _ => Nat.le_succ _
    | _ => exact fails
  | _ => exact fails

/-- The arguments of one more call. -/
theorem arguments : Rule.InRounds tokens first (· = .symbol .leftParen) grammar.arguments
    grammar'.arguments :=
  .whenNext alike.ends (by simp)
    ((alike.delimited .rightParen .firstArgument .nextArgument).mono (Nat.le_refl _) fun _ =>
      Nat.zero_le _)

/-- Calls. -/
theorem call : Rule.InStep tokens first (fun _ => 1) grammar.call grammar'.call := by
  refine alike.atom.bind fun callee => ?_
  exact (alike.mono (Nat.le_succ _)).arguments.inStep.many.map fun _ => Nat.le_refl _

/-- Powers. -/
theorem power : Rule.InStep tokens first (fun _ => 1) grammar.power grammar'.power := by
  refine alike.call.bind fun base => ?_
  have others : Rule.InRounds tokens (first + 1) _
      (Rule.operation grammar.factor (TokenKind.operatorAt? .power))
      (Rule.operation grammar'.factor (TokenKind.operatorAt? .power)) :=
    .operation alike.ends rfl (alike.factor.mono (Nat.le_succ _) fun _ => Nat.zero_le _)
  exact others.inStep.many.map fun _ => Nat.le_refl _

/-- Factors. -/
theorem factorRule :
    Rule.InStep tokens first (fun _ => 1) grammar.factorRule grammar'.factorRule := by
  -- Factors come back to themselves behind a sign only.
  refine .of_first alike.ends fun kind span start from_ inside whole more => ?_
  have power := alike.power start from_ inside
  rw [whole] at power
  have signed (operator : UnaryOperator) :=
    prefixed operator span (alike.factor.mono (Nat.le_refl _) fun _ => Nat.le_refl 1)
  cases kind with
  | symbol symbol =>
    cases symbol with
    | minus => exact (signed .negate).behind from_ (more (by simp)) fun _ => Nat.le_succ _
    | plus => exact (signed .plus).behind from_ (more (by simp)) fun _ => Nat.le_succ _
    | _ => exact power
  | _ => exact power

/-- Products. -/
theorem multiplicative :
    Rule.InStep tokens first (fun _ => 1) grammar.multiplicative grammar'.multiplicative :=
  .chain alike.ends rfl alike.factorRule

/-- Sums. -/
theorem additive : Rule.InStep tokens first (fun _ => 1) grammar.additive grammar'.additive :=
  .chain alike.ends rfl alike.multiplicative

/-- Comparisons of sums. -/
theorem compared : Rule.InStep tokens first (fun _ => 1) grammar.compared grammar'.compared :=
  .chain alike.ends rfl alike.additive

/-- Comparisons. -/
theorem comparisonRule :
    Rule.InStep tokens first (fun _ => 1) grammar.comparisonRule grammar'.comparisonRule := by
  -- Comparisons come back to themselves behind a `NOT` only.
  refine .of_first alike.ends fun kind span start from_ inside whole more => ?_
  have compared := alike.compared.orExpected .comparison start from_ inside
  rw [whole] at compared
  have negated := prefixed .not span alike.comparison
  cases kind with
  | keyword word =>
    cases word with
    | notWord => exact negated.behind from_ (more (by simp)) fun _ => Nat.le_succ _
    | _ => exact compared
  | _ => exact compared

/-- Comparisons between logical operators. -/
theorem logical : Rule.InStep tokens first (fun _ => 1) grammar.logical grammar'.logical :=
  .chain alike.ends rfl alike.comparisonRule

/-- Expressions. -/
theorem expressionRule :
    Rule.InStep tokens first (fun _ => 1) grammar.expressionRule grammar'.expressionRule := by
  -- Expressions come back to themselves behind the words of an assignment only.
  refine .of_first alike.ends fun kind span start from_ inside whole more => ?_
  have logical := alike.logical.orExpected .expression start from_ inside
  rw [whole] at logical
  cases kind with
  | keyword word =>
    cases word with
    | varWord => exact alike.assignment.behind from_ (more (by simp)) fun _ => Nat.le_succ _
    | _ => exact logical
  | _ => exact logical

/-- Single statements. -/
theorem statementRule :
    Rule.InStep tokens first (fun _ => 1) grammar.statementRule grammar'.statementRule := by
  -- A signal is taken by its word, and any other statement is an expression.
  refine .of_first alike.ends fun kind span start from_ inside whole more => ?_
  have expression := alike.expressionRule.orExpected .statement start from_ inside
  rw [whole] at expression
  cases kind with
  | keyword word =>
    cases word with
    | returnWord =>
      exact (alike.returning span).behind from_ (more (by simp)) fun _ => Nat.le_refl _
    | continueWord | breakWord => exact .one (more (by simp)) (Nat.le_refl _)
    | _ => exact expression
  | _ => exact expression

/-- One more operand behind an operator of any level. -/
theorem operation (level : Level) :
    Rule.InRounds tokens first (fun kind => (kind.operatorAt? level).isSome)
      (Rule.operation (grammar.operand level) (TokenKind.operatorAt? level))
      (Rule.operation (grammar'.operand level) (TokenKind.operatorAt? level)) := by
  -- The operand stands behind the operator, so it may be read by any rule at all.
  have behind := alike.mono (Nat.le_succ _)
  have operands : Rule.InStep tokens (first + 1) (fun _ => 1) (grammar.operand level)
      (grammar'.operand level) := by
    cases level with
    | logical => exact behind.comparisonRule
    | comparison => exact behind.additive
    | additive => exact behind.multiplicative
    | multiplicative => exact behind.factorRule
    | power => exact alike.factor
  exact .operation alike.ends rfl (operands.mono (Nat.le_refl _) fun _ => Nat.zero_le _)

/-- One more statement behind newlines. -/
theorem anotherStatement : Rule.InRounds tokens first (· = .newline) grammar.anotherStatement
    grammar'.anotherStatement :=
  .afterNewlines alike.ends (alike.mono (Nat.le_succ _)).statementRule

/-- Statements between newlines. -/
theorem statementsRule :
    Rule.InStep tokens first (fun _ => 1) grammar.statementsRule grammar'.statementsRule := by
  -- The newlines in front may be none, but the first statement takes a token.
  refine (Rule.InStep.newlines alike.ends |>.mono (Nat.le_refl _) fun _ => Nat.zero_le _).bind
    fun found => ?_
  refine alike.statementRule.bind fun head => ?_
  exact (alike.mono (Nat.le_succ _)).anotherStatement.inStep.many.map fun _ => Nat.le_refl _

/-- Grammars behind a token are in step on that token if they come back to such ones. -/
theorem next : grammar.next.InStep tokens first grammar'.next where
  ends := alike.ends
  expression := alike.expressionRule
  comparison := alike.comparisonRule
  factor := alike.factorRule
  statement := alike.statementRule
  statements := alike.statementsRule

end Entered

/--
Rules that nest as deep as there are tokens left never come to whatever they are made of in the end.
-/
theorem unrolled (ends : EndsOnce tokens) (base : Grammar) (depth : Nat)
    (deep : tokens.length ≤ first + depth) :
    (Grammar.next^[depth] base).InStep tokens first full := by
  -- One level takes one token, so the tokens are used up before the levels are.
  induction depth generalizing first with
  | zero =>
    have beyond {rule rule' : Rule Node} : Rule.InStep tokens first (fun _ => 1) rule rule' :=
      fun start from_ inside => by omega
    exact ⟨ends, beyond, beyond, beyond, beyond, beyond⟩
  | succ depth ih =>
    have inner : (Grammar.next^[depth] base).InStep tokens (first + 1) full := ih (by omega)
    rw [Function.iterate_succ_apply', ← next_full]
    exact inner.next

/-- The full grammar is in step with itself. -/
theorem full (ends : EndsOnce tokens) : Grammar.full.InStep tokens first Grammar.full := by
  have whole : (Grammar.next^[tokens.length] Grammar.full).InStep tokens first Grammar.full :=
    unrolled ends Grammar.full tokens.length (Nat.le_add_left _ _)
  rwa [Function.iterate_fixed next_full] at whole

end InStep

/--
The rules of the parser, and how many tokens each of them takes before it comes back to the grammar
for the first time.
-/
inductive Part : {α : Type} → Nat → (Grammar → Rule α) → Prop where
  | token (kind : TokenKind) (expected : Expectation) (inner : kind ≠ .endOfText) :
    Part 1 fun _ => Rule.token kind expected
  | identifier (expected : Expectation) : Part 1 fun _ => Rule.identifier expected
  | delimited (closing : Symbol) (some more : Expectation) :
    Part 0 fun grammar => grammar.delimited closing some more
  | body : Part 0 body
  | closedBody : Part 0 closedBody
  | branch : Part 0 branch
  | conditional (word : Span) : Part 0 fun grammar => grammar.conditional word
  | forLoop : Part 0 forLoop
  | whileLoop : Part 0 whileLoop
  | functionName : Part 1 fun _ => functionName
  | parameters : Part 1 fun _ => parameters
  | functionBody : Part 0 functionBody
  | function (word : Span) : Part 0 fun grammar => grammar.function word
  | parenthesised : Part 0 parenthesised
  | list (bracket : Span) : Part 0 fun grammar => grammar.list bracket
  | assignment : Part 0 assignment
  | atom : Part 1 atom
  | call : Part 1 call
  | power : Part 1 power
  | factor : Part 1 factorRule
  | multiplicative : Part 1 multiplicative
  | additive : Part 1 additive
  | compared : Part 1 compared
  | comparison : Part 1 comparisonRule
  | logical : Part 1 logical
  | expression : Part 1 expressionRule
  | statement : Part 1 statementRule
  | statements : Part 1 statementsRule

/-- The rounds of the loops of the parser, and the kinds of tokens with which a loop goes on. -/
inductive Round : {α : Type} → (TokenKind → Prop) → (Grammar → Rule (Option α)) → Prop where
  | item : Round (· = .symbol .comma) fun grammar => afterComma grammar.expression
  | parameter : Round (· = .symbol .comma) fun _ => afterComma (Rule.identifier .identifier)
  | arguments : Round (· = .symbol .leftParen) arguments
  | branch : Round (· = .keyword .elifWord) anotherBranch
  | operation (level : Level) : Round (fun kind => (kind.operatorAt? level).isSome) fun grammar =>
      Rule.operation (grammar.operand level) (TokenKind.operatorAt? level)
  | statement : Round (· = .newline) anotherStatement

section Parts

variable {α : Type} {tokens : List Token} {first lead : Nat} {grammar grammar' : Grammar}

/-- A rule does the same for grammars that are in step where it comes back to them. -/
theorem Part.inStep {rule : Grammar → Rule α} (part : Part lead rule)
    (alike : grammar.InStep tokens (first + lead) grammar') :
    Rule.InStep tokens first (fun _ => 1) (rule grammar) (rule grammar') := by
  -- One case for each rule.
  cases part with
  | token kind expected inner => exact .token alike.ends expected inner
  | identifier expected => exact .identifier alike.ends expected
  | delimited closing some more => exact InStep.delimited alike closing some more
  | body => exact InStep.body alike
  | closedBody => exact InStep.closedBody alike
  | branch => exact InStep.branch alike
  | conditional word => exact InStep.conditional alike word
  | forLoop => exact InStep.forLoop alike
  | whileLoop => exact InStep.whileLoop alike
  | functionName => exact InStep.functionName alike.ends
  | parameters => exact InStep.parameters alike.ends
  | functionBody => exact InStep.functionBody alike
  | function word => exact InStep.function alike word
  | parenthesised => exact InStep.parenthesised alike
  | list bracket => exact InStep.list alike bracket
  | assignment => exact InStep.assignment alike
  | atom => exact alike.atom
  | call => exact alike.call
  | power => exact alike.power
  | factor => exact alike.factorRule
  | multiplicative => exact alike.multiplicative
  | additive => exact alike.additive
  | compared => exact alike.compared
  | comparison => exact alike.comparisonRule
  | logical => exact alike.logical
  | expression => exact alike.expressionRule
  | statement => exact alike.statementRule
  | statements => exact alike.statementsRule

/-- A round comes back to the grammar behind the token that it goes on with. -/
theorem Round.inRounds {enters : TokenKind → Prop} {round : Grammar → Rule (Option α)}
    (of : Round enters round) (alike : grammar.InStep tokens (first + 1) grammar') :
    Rule.InRounds tokens first enters (round grammar) (round grammar') := by
  -- One case for each loop.
  cases of with
  | item => exact alike.afterComma
  | parameter => exact InStep.anotherParameter alike.ends
  | arguments => exact alike.arguments
  | branch => exact InStep.anotherBranch alike
  | operation level => exact alike.operation level
  | statement => exact alike.anotherStatement

end Parts

/-- Two grammars whose rules come to the same wherever they start at some index or later. -/
structure SameFrom (tokens : List Token) (first : Nat) (grammar grammar' : Grammar) : Prop where
  expression : Rule.SameFrom tokens first grammar.expression grammar'.expression
  comparison : Rule.SameFrom tokens first grammar.comparison grammar'.comparison
  factor : Rule.SameFrom tokens first grammar.factor grammar'.factor
  statement : Rule.SameFrom tokens first grammar.statement grammar'.statement
  statements : Rule.SameFrom tokens first grammar.statements grammar'.statements

/-- What comes to the same as the full grammar is in step with it. -/
theorem SameFrom.inStep {tokens : List Token} {first : Nat} {grammar : Grammar}
    (same : grammar.SameFrom tokens first full) (ends : EndsOnce tokens) :
    grammar.InStep tokens first full := by
  have whole : full.InStep tokens first full := .full ends
  exact
    { ends
      expression := same.expression.inStep whole.expression
      comparison := same.comparison.inStep whole.comparison
      factor := same.factor.inStep whole.factor
      statement := same.statement.inStep whole.statement
      statements := same.statements.inStep whole.statements }

/--
How a rule comes to an end at an index of the tokens: it comes back to the grammar only some tokens
later, and where rules nest as deep as there are tokens left, it is the same whatever would have
been done any deeper.
-/
structure Terminates {α : Type} (tokens : List Token) (start lead : Nat)
    (rule : Grammar → Rule α) : Prop where
  guarded : ∀ grammar : Grammar, grammar.SameFrom tokens (start + lead) full →
    rule grammar (tokens.drop start) = rule full (tokens.drop start)
  bounded : ∀ base depth, tokens.length ≤ start + lead + depth →
    rule (next^[depth] base) (tokens.drop start) = rule full (tokens.drop start)

end Grammar

/-- The end of the text is the last of the tokens. -/
theorem EndsOnce.kind_iff {tokens : List Token} (ends : EndsOnce tokens) {place : Nat}
    (inside : place < tokens.length) :
    tokens[place].kind = .endOfText ↔ place = tokens.length - 1 := by
  -- The tokens before the last one hold no other end, and the last one has none behind it.
  constructor
  · intro stop
    by_contra other
    obtain ⟨body, last, rfl, noEnd, -⟩ := ends
    have before : place < body.length := by
      rw [List.length_append, List.length_singleton] at inside other
      omega
    rw [List.getElem_append_left before] at stop
    exact noEnd _ (List.getElem_mem before) stop
  · rintro rfl
    by_contra other
    have := ends.next_inside (List.getElem?_eq_getElem inside) other
    omega

/-- A program is statements up to the last token, and a fault lies at one of the tokens. -/
theorem parse_stops {tokens : List Token} (ends : EndsOnce tokens) :
    (∀ program, parse tokens = .ok program ↔
      Grammar.full.statements tokens = .ok (program, tokens.drop (tokens.length - 1))) ∧
    ∀ error, parse tokens = .error error →
      ∃ stop, ∃ inside : stop < tokens.length, error.span = tokens[stop].span := by
  have inside : 0 < tokens.length := by
    obtain ⟨body, stop, rfl, -⟩ := ends
    simp
  have stops := ((Grammar.InStep.full ends).statements 0 (Nat.le_refl _) inside).stops
  rw [List.drop_zero] at stops
  generalize parsed : Grammar.full.statements tokens = outcome at stops
  -- The statements have stopped at some token; it decides what comes of the program.
  cases stops with
  | @error expected stop later before =>
    have failed : parse tokens =
        .error { cause := .unexpected expected, span := tokens[stop].span } := by
      simp only [parse, parseProgram_eq, Rule.bind_apply, parsed,
        List.drop_eq_getElem_cons before, List.head?_cons]
      rfl
    rw [failed]
    refine ⟨fun program => ⟨fun same => ?_, fun same => ?_⟩, fun error same => ⟨stop, before, ?_⟩⟩
    · cases same
    · cases same
    · cases same
      rfl
  | @ok program stop advanced before =>
    have last := ends.kind_iff before
    by_cases final : tokens[stop].kind = .endOfText
    · have done : parse tokens = .ok program := by
        simp only [parse, parseProgram_eq, Rule.bind_apply, parsed,
          List.drop_eq_getElem_cons before, Rule.token, if_pos final, Rule.pure_apply]
      rw [done]
      refine ⟨fun other => ⟨?_, ?_⟩, fun error same => ?_⟩
      · rintro ⟨⟩
        rw [last.mp final]
      · rintro same
        injection same with same
        rw [(Prod.mk.inj same).1]
      · cases same
    · have failed : parse tokens =
          .error { cause := .unexpected .nothing, span := tokens[stop].span } := by
        simp only [parse, parseProgram_eq, Rule.bind_apply, parsed,
          List.drop_eq_getElem_cons before, Rule.token, if_neg final, Rule.fail, List.head?_cons]
        rfl
      rw [failed]
      refine ⟨fun other => ⟨fun same => ?_, fun same => ?_⟩, fun error same => ⟨stop, before, ?_⟩⟩
      · cases same
      · -- What is left would be the last token only.
        have lengths : (tokens.drop stop).length = (tokens.drop (tokens.length - 1)).length := by
          injection same with same
          rw [(Prod.mk.inj same).2]
        rw [List.length_drop, List.length_drop] at lengths
        exact absurd (last.mpr (by omega)) final
      · cases same
        rfl

/--
The parser makes progress and comes to an end. Every rule does so from every index of tokens that
end once: it stops at one of them, a token further on if it has a result, and where it has started
if it fails without having taken one; every round of a loop takes the token that it goes on with, and
no loop goes on for more rounds than there are tokens left.
-/
theorem Grammar.full_terminates {tokens : List Token} (ends : EndsOnce tokens) {start : Nat}
    (inside : start < tokens.length) :
    (∀ {α : Type} {lead : Nat} {rule : Grammar → Rule α}, Grammar.Part lead rule →
      Grammar.Terminates tokens start lead rule ∧
      (rule Grammar.full (tokens.drop start)).Stops tokens start (fun _ => 1) ∧
      ∀ failure, rule Grammar.full (tokens.drop start) = .error failure →
        ¬ failure.rest.length < (tokens.drop start).length → failure.rest = tokens.drop start) ∧
    (∀ {α : Type} {enters : TokenKind → Prop} {round : Grammar → Rule (Option α)},
      Grammar.Round enters round →
      Grammar.Terminates tokens start 1 round ∧
      (enters tokens[start].kind →
        (round Grammar.full (tokens.drop start)).Stops tokens (start + 1) (fun _ => 0)) ∧
      (¬ enters tokens[start].kind →
        round Grammar.full (tokens.drop start) = .ok (none, tokens.drop start)) ∧
      ∀ beyond rounds, tokens.length ≤ start + rounds →
        Rule.manyThen (round Grammar.full) beyond rounds (tokens.drop start) =
          Rule.many (round Grammar.full) (tokens.drop start)) ∧
    (∀ program, parse tokens = .ok program ↔
      Grammar.full.statements tokens = .ok (program, tokens.drop (tokens.length - 1))) ∧
    ∀ error, parse tokens = .error error →
      ∃ stop, ∃ inside : stop < tokens.length, error.span = tokens[stop].span := by
  have whole {first : Nat} : Grammar.full.InStep tokens first Grammar.full := .full ends
  refine ⟨fun {α lead rule} part => ?_, fun {α enters round} of => ?_, parse_stops ends⟩
  · have stops := ((part.inStep whole) start (Nat.le_refl _) inside).stops
    refine ⟨⟨fun grammar same => ?_, fun base depth deep => ?_⟩, stops,
      fun failure failed none => ?_⟩
    · exact ((part.inStep (same.inStep ends)) start (Nat.le_refl _) inside).same
    · exact ((part.inStep (.unrolled ends base depth deep)) start (Nat.le_refl _) inside).same
    · rw [failed] at stops
      cases stops with
      | @error expected stop later before =>
        -- As many tokens are left as there were at the start.
        rw [List.length_drop, List.length_drop] at none
        obtain rfl : stop = start := by omega
        rfl
  · have rounds : Rule.InRounds tokens start enters (round Grammar.full) (round Grammar.full) :=
      of.inRounds whole
    refine ⟨⟨fun grammar same => ?_, fun base depth deep => ?_⟩, fun enter => ?_, fun leave => ?_,
      fun beyond rounds' enough => ?_⟩
    · exact ((of.inRounds (same.inStep ends)).inStep start (Nat.le_refl _) inside).same
    · have alike := Grammar.InStep.unrolled ends base depth deep
      exact ((of.inRounds alike).inStep start (Nat.le_refl _) inside).same
    · exact (rounds.enter start (Nat.le_refl _) inside enter).stops
    · exact (rounds.leave start (Nat.le_refl _) inside leave).2
    · rw [Rule.many, Rule.manyUpTo_eq_manyThen]
      exact (rounds.manyThen beyond (pure []) enough (by rw [List.length_drop]; omega) start
        (Nat.le_refl _) inside).same

/-- An assignment without its sign is read to an end, with no more than three levels of rules. -/
theorem full_terminates_misassigned :
    EndsOnce misassigned ∧ 0 < misassigned.length ∧
      (Grammar.full.statementsRule misassigned).Stops misassigned 0 (fun _ => 1) ∧
      ∀ base depth, 3 ≤ depth →
        (Grammar.next^[depth] base).statementsRule misassigned =
          Grammar.full.statementsRule misassigned := by
  have ends : EndsOnce misassigned :=
    ⟨misassigned.take 3, ⟨.endOfText, ⟨default, ⟨7, 0, 7⟩, ⟨7, 0, 7⟩⟩⟩, rfl,
      by simp [NoEnd, misassigned], rfl⟩
  have inside : 0 < misassigned.length := by decide
  obtain ⟨terminates, stops, -⟩ := (Grammar.full_terminates ends inside).1 .statements
  refine ⟨ends, inside, stops, fun base depth deep => terminates.bounded base depth ?_⟩
  have length : misassigned.length = 4 := rfl
  omega

end Scriptlet
