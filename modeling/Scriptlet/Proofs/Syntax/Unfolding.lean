import Scriptlet.Proofs.Syntax.Alike
import Scriptlet.Syntax.Grammar

/-!
The grammar without a bound on how deep its rules nest: there is always room for as much nesting as
there are tokens, so every rule is its own definition in terms of the others.
-/

namespace Scriptlet

/-- Grammars whose rules make the same of alike tokens, as long as there are at most so many. -/
structure Grammar.Similar (spans : Span → Span → Prop) (length : Nat) (grammar grammar' : Grammar) :
    Prop where
  expression : Rule.Similar spans length (Node.Similar spans) grammar.expression grammar'.expression
  comparison : Rule.Similar spans length (Node.Similar spans) grammar.comparison grammar'.comparison
  factor : Rule.Similar spans length (Node.Similar spans) grammar.factor grammar'.factor
  statement : Rule.Similar spans length (Node.Similar spans) grammar.statement grammar'.statement
  statements : Rule.Similar spans length (Node.Similar spans) grammar.statements grammar'.statements

namespace Rule.Similar

variable {spans : Span → Span → Prop} {length : Nat}

/-- What comes after a comma is alike. -/
theorem afterComma {α α' : Type} {results : α → α' → Prop} {item : Rule α} {item' : Rule α'}
    (items : Rule.Similar spans length results item item') :
    Rule.Similar spans length (Option.Rel results) (Grammar.afterComma item)
      (Grammar.afterComma item') := by
  -- The comma is there on both sides or on none.
  refine token?.bind fun comma comma' same => ?_
  cases same with
  | none => exact .pure .none
  | some _ => exact items.map_pure fun _ _ alike => .some alike

/-- An operator and alike operands after it are alike. -/
theorem operation {operand operand' : Rule Node} (operator? : TokenKind → Option BinaryOperator)
    (operands : Rule.Similar spans length (Node.Similar spans) operand operand') :
    Rule.Similar spans (length + 1) (Option.Rel (PairAlike (· = ·) (Node.Similar spans)))
      (Rule.operation operand operator?) (Rule.operation operand' operator?) := by
  -- Tokens of one kind stand for the same operator.
  refine .of_first (.ok .none .nil (Nat.le_refl _))
    fun kind span span' rest rest' ranges same whole bound => ?_
  simp only [Rule.operation]
  cases operator? kind with
  | none => exact .ok .none whole (Nat.le_refl _)
  | some operator =>
    have more : Rule.Similar spans length (Option.Rel (PairAlike (· = ·) (Node.Similar spans)))
        (do return some (operator, ← operand)) (do return some (operator, ← operand')) :=
      operands.map_pure fun _ _ alike => .some ⟨rfl, alike⟩
    exact more.rest same bound

/-- Operators with alike operands, grouped from the left, make alike constructs. -/
theorem joined (through : Span.RespectsThrough spans) {left left' : Node}
    {operations operations' : List (BinaryOperator × Node)} (lefts : left.Similar spans left')
    (alike : List.Forall₂ (PairAlike (· = ·) (Node.Similar spans)) operations operations') :
    Node.Similar spans
      (operations.foldl (fun left (operator, right) => .joined operator left right) left)
      (operations'.foldl (fun left (operator, right) => .joined operator left right) left') := by
  -- Each operation turns alike left operands into alike constructs.
  induction alike generalizing left left' with
  | nil => exact lefts
  | @cons operation operation' _ _ same _ ih =>
    obtain ⟨operator, right⟩ := operation
    obtain ⟨operator', right'⟩ := operation'
    obtain ⟨rfl, rights⟩ := same
    exact ih (.binary (through _ _ _ _ lefts.span rights.span) lefts rights)

/-- Chains of alike operands are alike. -/
theorem chain (through : Span.RespectsThrough spans) {operand operand' : Rule Node}
    (operator? : TokenKind → Option BinaryOperator)
    (operands : Rule.Similar spans (length + 1) (Node.Similar spans) operand operand') :
    Rule.Similar spans (length + 1) (Node.Similar spans) (Rule.chain operand operator?)
      (Rule.chain operand' operator?) := by
  -- The first operand and the operations after it are alike.
  refine operands.bind fun first first' firsts => ?_
  have operations := (operands.mono (Nat.le_succ _)).operation operator?
  exact (many operations).map_pure fun _ _ others => joined through firsts others

/-- Signs and words before alike operands make alike constructs. -/
theorem prefixed (through : Span.RespectsThrough spans) {operand operand' : Rule Node}
    (operator : UnaryOperator) {span span' : Span} (ranges : spans span span')
    (operands : Rule.Similar spans length (Node.Similar spans) operand operand') :
    Rule.Similar spans length (Node.Similar spans) (Grammar.prefixed operator span operand)
      (Grammar.prefixed operator span' operand') :=
  operands.map_pure fun _ _ alike => .unary (through _ _ _ _ ranges alike.span) alike

/-- Names of functions are alike. -/
theorem functionName :
    Rule.Similar spans length (· = ·) Grammar.functionName Grammar.functionName := by
  -- Only an identifier makes a difference.
  refine .of_first (.error .nil) fun kind span span' rest rest' ranges same whole bound => ?_
  have opened (expected : Expectation) (name : Option String) :
      Rule.Similar spans length (· = ·)
        (do let _ ← Rule.symbol .leftParen expected; return name : Rule (Option String))
        (do let _ ← Rule.symbol .leftParen expected; return name) :=
    token.map_pure fun _ _ _ => rfl
  cases kind with
  | identifier name => exact (opened .parameters (some name)).rest same (Nat.le_succ_of_le bound)
  | _ => exact opened .identifierOrParameters none _ _ whole bound

/-- Parameters are alike. -/
theorem parameters :
    Rule.Similar spans length (· = ·) Grammar.parameters Grammar.parameters := by
  -- Only an identifier makes a difference.
  refine .of_first (.error .nil) fun kind span span' rest rest' ranges same whole bound => ?_
  have none : Rule.Similar spans length (· = ·)
      (do let _ ← Rule.symbol .rightParen .firstParameter; return [] : Rule (List String))
      (do let _ ← Rule.symbol .rightParen .firstParameter; return []) :=
    token.map_pure fun _ _ _ => rfl
  cases kind with
  | identifier first =>
    have named : Rule.Similar spans length (· = ·)
        (do
          let more ← Rule.many (Grammar.afterComma (Rule.identifier .identifier))
          let _ ← Rule.symbol .rightParen .nextArgument
          return first :: more.map Prod.fst : Rule (List String))
        (do
          let more ← Rule.many (Grammar.afterComma (Rule.identifier .identifier))
          let _ ← Rule.symbol .rightParen .nextArgument
          return first :: more.map Prod.fst) := by
      refine (many (afterComma identifier)).bind fun more more' others => ?_
      refine token.map_pure fun _ _ _ => ?_
      have names : more.map Prod.fst = more'.map Prod.fst := by
        induction others with
        | nil => rfl
        | cons alike _ ih => simp only [List.map_cons, alike.1, ih]
      rw [names]
    exact named.rest same (Nat.le_succ_of_le bound)
  | _ => exact none _ _ whole bound

end Rule.Similar

namespace Grammar.Similar

variable {spans : Span → Span → Prop} {length : Nat} {grammar grammar' : Grammar}

/-- Expressions between commas are alike. -/
theorem delimited (alike : Grammar.Similar spans length grammar grammar') (closing : Symbol)
    (first next : Expectation) :
    Rule.Similar spans length (PairAlike (List.Forall₂ (Node.Similar spans)) spans)
      (grammar.delimited closing first next) (grammar'.delimited closing first next) := by
  -- The closing symbol comes at once or behind the last item.
  refine Rule.Similar.token?.bind fun close close' same => ?_
  cases same with
  | some same => exact .pure ⟨.nil, same.2⟩
  | none =>
    refine (alike.expression.orExpected first).bind fun item item' items => ?_
    refine (Rule.Similar.many (.afterComma alike.expression)).bind fun more more' others => ?_
    exact Rule.Similar.token.map_pure fun _ _ same => ⟨.cons items others, same.2⟩

/-- Bodies are alike and of one form. -/
theorem body (alike : Grammar.Similar spans length grammar grammar') :
    Rule.Similar spans length (PairAlike (Node.Similar spans) (· = ·)) grammar.body
      grammar'.body := by
  -- The newline is there on both sides or on none.
  refine Rule.Similar.token?.bind fun newline newline' same => ?_
  cases same with
  | some _ => exact alike.statements.map_pure fun _ _ bodies => ⟨bodies, rfl⟩
  | none => exact alike.statement.map_pure fun _ _ bodies => ⟨bodies, rfl⟩

/-- Bodies of one form end alike. -/
theorem bodyEnd (form : BodyForm) (expected : Expectation) :
    Rule.Similar spans length (· = ·) (Grammar.bodyEnd form expected)
      (Grammar.bodyEnd form expected) := by
  -- Only a block has an end of its own.
  cases form with
  | inline => exact .pure rfl
  | block => exact Rule.Similar.token.map_pure fun _ _ _ => rfl

/-- Bodies with their ends are alike. -/
theorem closedBody (alike : Grammar.Similar spans length grammar grammar') :
    Rule.Similar spans length (PairAlike (Node.Similar spans) (· = ·)) grammar.closedBody
      grammar'.closedBody := by
  -- The form decides how a body ends.
  refine alike.body.bind fun ⟨body, form⟩ ⟨body', form'⟩ bodies => ?_
  obtain ⟨bodies, rfl⟩ := bodies
  exact (bodyEnd form .endWord).map_pure fun _ _ _ => ⟨bodies, rfl⟩

/-- Branches with alike conditions and bodies of one form. -/
def BranchesAlike (spans : Span → Span → Prop) (branch branch' : Branch) : Prop :=
  branch.condition.Similar spans branch'.condition ∧ branch.body.Similar spans branch'.body ∧
    branch.form = branch'.form

/-- Branches are alike. -/
theorem branch (alike : Grammar.Similar spans length grammar grammar') :
    Rule.Similar spans length (BranchesAlike spans) grammar.branch grammar'.branch := by
  -- The condition, the word and the body are read in turn.
  refine alike.expression.bind fun condition condition' conditions => ?_
  refine Rule.Similar.token.bind fun _ _ _ => ?_
  exact alike.body.map_pure fun _ _ bodies => ⟨conditions, bodies.1, bodies.2⟩

/-- Further branches are alike. -/
theorem anotherBranch (alike : Grammar.Similar spans length grammar grammar') :
    Rule.Similar spans length (Option.Rel (BranchesAlike spans)) grammar.anotherBranch
      grammar'.anotherBranch := by
  -- The word is there on both sides or on none.
  refine Rule.Similar.token?.bind fun word word' same => ?_
  cases same with
  | none => exact .pure .none
  | some _ => exact alike.branch.map_pure fun _ _ branches => .some branches

/-- What comes after the last branch is alike. -/
theorem otherwise (alike : Grammar.Similar spans length grammar grammar') (form : BodyForm) :
    Rule.Similar spans length (Choices.Similar spans) (grammar.otherwise form)
      (grammar'.otherwise form) := by
  -- The word is there on both sides or on none.
  refine Rule.Similar.token?.bind fun word word' same => ?_
  cases same with
  | none => exact (bodyEnd form .nextBranch).map_pure fun _ _ _ => .none
  | some _ =>
    refine alike.closedBody.bind fun ⟨body, form⟩ ⟨body', form'⟩ bodies => ?_
    obtain ⟨bodies, rfl⟩ := bodies
    exact .pure (.otherwise bodies)

/-- The last of alike branches are alike. -/
theorem lastBranch {first first' : Branch} {more more' : List Branch}
    (firsts : BranchesAlike spans first first')
    (others : List.Forall₂ (BranchesAlike spans) more more') :
    BranchesAlike spans (more.getLast?.getD first) (more'.getLast?.getD first') := by
  -- Every further branch takes the place of the first one.
  induction others generalizing first first' with
  | nil => exact firsts
  | cons alike _ ih => simpa only [List.getLast?_cons, Option.getD_some] using ih alike

/-- Alike branches in front of alike choices are alike choices. -/
theorem choices {branches branches' : List Branch} {last last' : Choices}
    (alike : List.Forall₂ (BranchesAlike spans) branches branches')
    (lasts : last.Similar spans last') :
    Choices.Similar spans (branches.foldr Branch.before last)
      (branches'.foldr Branch.before last') := by
  -- One branch after the other comes in front.
  induction alike with
  | nil => exact lasts
  | @cons branch branch' _ _ same _ ih =>
    obtain ⟨condition, body, form⟩ := branch
    obtain ⟨condition', body', form'⟩ := branch'
    obtain ⟨conditions, bodies, rfl⟩ := same
    exact .test conditions bodies ih

/-- Conditionals are alike. -/
theorem conditional (through : Span.RespectsThrough spans)
    (alike : Grammar.Similar spans length grammar grammar') {word word' : Span}
    (words : spans word word') :
    Rule.Similar spans length (Node.Similar spans) (grammar.conditional word)
      (grammar'.conditional word') := by
  -- The form of the last branch decides what may end the conditional.
  refine alike.branch.bind fun first first' firsts => ?_
  refine (Rule.Similar.many alike.anotherBranch).bind fun more more' others => ?_
  have lasts := lastBranch firsts others
  rw [lasts.2.2]
  refine (alike.otherwise _).map_pure fun last last' same => ?_
  have same := choices (.cons firsts others) same
  have ends := same.lastBody?
  refine .conditional (through _ _ _ _ words ?_) same
  revert ends
  generalize Choices.lastBody? _ = span?, Choices.lastBody? _ = span?'
  intro ends
  cases ends with
  | none => exact words
  | some ranges => exact ranges

/-- Steps of counted loops are alike. -/
theorem step (alike : Grammar.Similar spans length grammar grammar') :
    Rule.Similar spans length (Option.Rel (Node.Similar spans)) grammar.step grammar'.step := by
  -- The word is there on both sides or on none.
  refine Rule.Similar.token?.bind fun word word' same => ?_
  cases same with
  | none => exact .pure .none
  | some _ => exact alike.expression.map_pure fun _ _ steps => .some steps

/-- Counted loops are alike. -/
theorem forLoop (through : Span.RespectsThrough spans)
    (alike : Grammar.Similar spans length grammar grammar') :
    Rule.Similar spans length (Node.Similar spans) grammar.forLoop grammar'.forLoop := by
  -- The parts of the header and the body are read in turn.
  refine Rule.Similar.identifier.bind fun ⟨name, span⟩ ⟨name', span'⟩ names => ?_
  obtain ⟨rfl, ranges⟩ := names
  refine Rule.Similar.token.bind fun _ _ _ => ?_
  refine alike.expression.bind fun first first' firsts => ?_
  refine Rule.Similar.token.bind fun _ _ _ => ?_
  refine alike.expression.bind fun bound bound' bounds => ?_
  refine alike.step.bind fun step step' steps => ?_
  refine Rule.Similar.token.bind fun _ _ _ => ?_
  refine alike.closedBody.bind fun ⟨body, form⟩ ⟨body', form'⟩ bodies => ?_
  obtain ⟨bodies, rfl⟩ := bodies
  exact .pure (.forLoop (through _ _ _ _ ranges bodies.span) firsts bounds steps bodies)

/-- Conditional loops are alike. -/
theorem whileLoop (through : Span.RespectsThrough spans)
    (alike : Grammar.Similar spans length grammar grammar') :
    Rule.Similar spans length (Node.Similar spans) grammar.whileLoop grammar'.whileLoop := by
  -- The condition, the word and the body are read in turn.
  refine alike.expression.bind fun condition condition' conditions => ?_
  refine Rule.Similar.token.bind fun _ _ _ => ?_
  refine alike.closedBody.bind fun ⟨body, form⟩ ⟨body', form'⟩ bodies => ?_
  obtain ⟨bodies, rfl⟩ := bodies
  exact .pure (.whileLoop (through _ _ _ _ conditions.span bodies.span) conditions bodies)

/-- Bodies of functions are alike. -/
theorem functionBody (alike : Grammar.Similar spans length grammar grammar') :
    Rule.Similar spans length (PairAlike (Node.Similar spans) (PairAlike (· = ·) spans))
      grammar.functionBody grammar'.functionBody := by
  -- The arrow is there on both sides or on none.
  refine Rule.Similar.token?.bind fun arrow arrow' same => ?_
  cases same with
  | some _ => exact alike.expression.map_pure fun _ _ bodies => ⟨bodies, rfl, bodies.span⟩
  | none =>
    refine Rule.Similar.token.bind fun _ _ _ => ?_
    refine alike.statements.bind fun body body' bodies => ?_
    exact Rule.Similar.token.map_pure fun _ _ same => ⟨bodies, rfl, same.2⟩

/-- Functions are alike. -/
theorem function (through : Span.RespectsThrough spans)
    (alike : Grammar.Similar spans length grammar grammar') {word word' : Span}
    (words : spans word word') :
    Rule.Similar spans length (Node.Similar spans) (grammar.function word)
      (grammar'.function word') := by
  -- The name, the parameters and the body are read in turn.
  refine Rule.Similar.functionName.bind fun name name' names => ?_
  subst names
  refine Rule.Similar.parameters.bind fun parameters parameters' same => ?_
  subst same
  refine alike.functionBody.bind fun ⟨body, form, stop⟩ ⟨body', form', stop'⟩ bodies => ?_
  obtain ⟨bodies, rfl, stops⟩ := bodies
  exact .pure (.function (through _ _ _ _ words stops) bodies)

/-- Expressions between parentheses are alike. -/
theorem parenthesised (alike : Grammar.Similar spans length grammar grammar') :
    Rule.Similar spans length (Node.Similar spans) grammar.parenthesised
      grammar'.parenthesised := by
  -- The parentheses leave no trace.
  refine alike.expression.bind fun inner inner' same => ?_
  exact Rule.Similar.token.map_pure fun _ _ _ => same

/-- Lists are alike. -/
theorem list (through : Span.RespectsThrough spans)
    (alike : Grammar.Similar spans length grammar grammar') {bracket bracket' : Span}
    (brackets : spans bracket bracket') :
    Rule.Similar spans length (Node.Similar spans) (grammar.list bracket)
      (grammar'.list bracket') := by
  -- The items end with the closing bracket.
  refine (alike.delimited _ _ _).bind fun ⟨items, close⟩ ⟨items', close'⟩ same => ?_
  exact .pure (.list (through _ _ _ _ brackets same.2) same.1)

/-- Atoms are alike. -/
theorem atom (through : Span.RespectsThrough spans)
    (alike : Grammar.Similar spans length grammar grammar') :
    Rule.Similar spans (length + 1) (Node.Similar spans) grammar.atom grammar'.atom := by
  -- The kind of the first token decides which atom it is.
  refine .of_first (.error .nil) fun kind span span' rest rest' ranges same whole bound => ?_
  have wrong : Parsed.Similar spans (Node.Similar spans) (rest.length + 1)
      (Rule.fail .atom (⟨kind, span⟩ :: rest)) (Rule.fail .atom (⟨kind, span'⟩ :: rest')) :=
    .error whole
  cases kind with
  | int value => exact .ok (.int ranges) same (Nat.le_succ _)
  | float value => exact .ok (.float ranges) same (Nat.le_succ _)
  | text value => exact .ok (.text ranges) same (Nat.le_succ _)
  | identifier name => exact .ok (.reference ranges) same (Nat.le_succ _)
  | keyword word =>
    cases word with
    | ifWord => exact (alike.conditional through ranges).rest same bound
    | forWord => exact (alike.forLoop through).rest same bound
    | whileWord => exact (alike.whileLoop through).rest same bound
    | funWord => exact (alike.function through ranges).rest same bound
    | _ => exact wrong
  | symbol symbol =>
    cases symbol with
    | leftParen => exact alike.parenthesised.rest same bound
    | leftBracket => exact (alike.list through ranges).rest same bound
    | _ => exact wrong
  | _ => exact wrong

/-- Lists of arguments are alike. -/
theorem arguments (alike : Grammar.Similar spans length grammar grammar') :
    Rule.Similar spans (length + 1)
      (Option.Rel (PairAlike (List.Forall₂ (Node.Similar spans)) spans)) grammar.arguments
      grammar'.arguments := by
  -- The parenthesis is there on both sides or on none.
  refine Rule.Similar.token?_bind (.pure .none) fun _ _ _ => ?_
  exact (alike.delimited _ _ _).map_pure fun _ _ same => .some same

/-- Calls are alike. -/
theorem call (through : Span.RespectsThrough spans)
    (alike : Grammar.Similar spans length grammar grammar') :
    Rule.Similar spans (length + 1) (Node.Similar spans) grammar.call grammar'.call := by
  -- Each list of arguments turns alike callees into alike calls.
  refine (alike.atom through).bind fun first first' firsts => ?_
  refine (Rule.Similar.many alike.arguments).map_pure fun calls calls' others => ?_
  induction others generalizing first first' with
  | nil => exact firsts
  | cons same _ ih => exact ih _ _ (.call (through _ _ _ _ firsts.span same.2) firsts same.1)

/-- Powers are alike. -/
theorem power (through : Span.RespectsThrough spans)
    (alike : Grammar.Similar spans length grammar grammar') :
    Rule.Similar spans (length + 1) (Node.Similar spans) grammar.power grammar'.power := by
  -- Each exponent is a factor after an operator.
  refine (alike.call through).bind fun base base' bases => ?_
  exact (Rule.Similar.many (alike.factor.operation _)).map_pure fun _ _ others =>
    Rule.Similar.joined through bases others

/-- Factors are alike. -/
theorem factorRule (through : Span.RespectsThrough spans)
    (alike : Grammar.Similar spans length grammar grammar') :
    Rule.Similar spans (length + 1) (Node.Similar spans) grammar.factorRule
      grammar'.factorRule := by
  -- Only the two signs make a difference.
  have powers := alike.power through
  refine .of_first (powers [] [] .nil (Nat.zero_le _))
    fun kind span span' rest rest' ranges same whole bound => ?_
  have unsigned := powers _ _ whole bound
  cases kind with
  | symbol symbol =>
    cases symbol with
    | minus => exact (Rule.Similar.prefixed through .negate ranges alike.factor).rest same bound
    | plus => exact (Rule.Similar.prefixed through .plus ranges alike.factor).rest same bound
    | _ => exact unsigned
  | _ => exact unsigned

/-- Comparisons and their negations are alike. -/
theorem comparisonRule (through : Span.RespectsThrough spans)
    (alike : Grammar.Similar spans length grammar grammar') :
    Rule.Similar spans (length + 1) (Node.Similar spans) grammar.comparisonRule
      grammar'.comparisonRule := by
  -- Only the word for a negation makes a difference.
  have compared : Rule.Similar spans (length + 1) (Node.Similar spans) grammar.compared
      grammar'.compared :=
    .chain through _ (.chain through _ (.chain through _ (alike.factorRule through)))
  have compared := compared.orExpected .comparison
  refine .of_first (compared [] [] .nil (Nat.zero_le _))
    fun kind span span' rest rest' ranges same whole bound => ?_
  have positive := compared _ _ whole bound
  cases kind with
  | keyword word =>
    cases word with
    | notWord => exact (Rule.Similar.prefixed through .not ranges alike.comparison).rest same bound
    | _ => exact positive
  | _ => exact positive

/-- Assignments are alike. -/
theorem assignment (through : Span.RespectsThrough spans)
    (alike : Grammar.Similar spans length grammar grammar') :
    Rule.Similar spans length (Node.Similar spans) grammar.assignment grammar'.assignment := by
  -- The name and the value are read in turn.
  refine Rule.Similar.identifier.bind fun ⟨name, span⟩ ⟨name', span'⟩ names => ?_
  obtain ⟨rfl, ranges⟩ := names
  refine Rule.Similar.token.bind fun _ _ _ => ?_
  exact alike.expression.map_pure fun _ _ values =>
    .assign (through _ _ _ _ ranges values.span) values

/-- Expressions are alike. -/
theorem expressionRule (through : Span.RespectsThrough spans)
    (alike : Grammar.Similar spans length grammar grammar') :
    Rule.Similar spans (length + 1) (Node.Similar spans) grammar.expressionRule
      grammar'.expressionRule := by
  -- Only the word for an assignment makes a difference.
  have logical : Rule.Similar spans (length + 1) (Node.Similar spans) grammar.logical
      grammar'.logical := .chain through _ (alike.comparisonRule through)
  have logical := logical.orExpected .expression
  refine .of_first (logical [] [] .nil (Nat.zero_le _))
    fun kind span span' rest rest' ranges same whole bound => ?_
  have other := logical _ _ whole bound
  cases kind with
  | keyword word =>
    cases word with
    | varWord => exact (alike.assignment through).rest same bound
    | _ => exact other
  | _ => exact other

/-- What functions return is alike. -/
theorem returning (through : Span.RespectsThrough spans)
    (alike : Grammar.Similar spans length grammar grammar') {word word' : Span}
    (words : spans word word') :
    Rule.Similar spans length (Node.Similar spans) (grammar.returning word)
      (grammar'.returning word') := by
  -- The value is there on both sides or on none.
  refine alike.expression.optional.map_pure fun value value' same => ?_
  refine .returning (through _ _ _ _ words ?_) same
  cases same with
  | none => exact words
  | some alike => exact alike.span

/-- Statements are alike. -/
theorem statementRule (through : Span.RespectsThrough spans)
    (alike : Grammar.Similar spans length grammar grammar') :
    Rule.Similar spans (length + 1) (Node.Similar spans) grammar.statementRule
      grammar'.statementRule := by
  -- Only the words for signals make a difference.
  have expression := (alike.expressionRule through).orExpected .statement
  refine .of_first (expression [] [] .nil (Nat.zero_le _))
    fun kind span span' rest rest' ranges same whole bound => ?_
  have other := expression _ _ whole bound
  cases kind with
  | keyword word =>
    cases word with
    | returnWord => exact (alike.returning through ranges).rest same bound
    | continueWord => exact .ok (.continuing ranges) same (Nat.le_succ _)
    | breakWord => exact .ok (.breaking ranges) same (Nat.le_succ _)
    | _ => exact other
  | _ => exact other

/-- Further statements are alike. -/
theorem anotherStatement (through : Span.RespectsThrough spans)
    (alike : Grammar.Similar spans length grammar grammar') :
    Rule.Similar spans (length + 1) (Option.Rel (Node.Similar spans)) grammar.anotherStatement
      grammar'.anotherStatement := by
  -- There are newlines on both sides or on none.
  refine Rule.Similar.newlines.bind fun found found' same => ?_
  subst same
  cases found with
  | true => exact (alike.statementRule through).optional
  | false => exact .pure .none

/-- The last of alike constructs have ranges in the relation. -/
theorem lastSpan {first first' : Node} {more more' : List Node}
    (firsts : first.Similar spans first') (others : List.Forall₂ (Node.Similar spans) more more') :
    spans (more.getLast?.getD first).span (more'.getLast?.getD first').span := by
  -- Every further construct takes the place of the first one.
  induction others generalizing first first' with
  | nil => exact firsts.span
  | cons alike _ ih => simpa only [List.getLast?_cons, Option.getD_some] using ih alike

/-- Sequences of statements are alike. -/
theorem statementsRule (through : Span.RespectsThrough spans)
    (alike : Grammar.Similar spans length grammar grammar') :
    Rule.Similar spans (length + 1) (Node.Similar spans) grammar.statementsRule
      grammar'.statementsRule := by
  -- The first statement and those after it are read in turn.
  refine Rule.Similar.newlines.bind fun _ _ _ => ?_
  refine (alike.statementRule through).bind fun first first' firsts => ?_
  refine (Rule.Similar.many (alike.anotherStatement through)).map_pure
    fun more more' others => ?_
  exact .sequence (through _ _ _ _ firsts.span (lastSpan firsts others)) (.cons firsts others)

end Grammar.Similar

namespace Grammar

/-- Rules that may nest as deep as there are tokens make the same of alike tokens. -/
theorem nested_similar {spans : Span → Span → Prop} (through : Span.RespectsThrough spans) :
    ∀ length depth depth', length ≤ depth → length ≤ depth' →
      Grammar.Similar spans length (nested depth) (nested depth') := by
  -- Every rule reads a token before it comes back to one, so one level goes with one token.
  intro length
  induction length with
  | zero =>
    intro depth depth' _ _
    have empty {rule rule' : Rule Node} (expected : Expectation)
        (left : rule [] = .error ⟨expected, []⟩) (right : rule' [] = .error ⟨expected, []⟩) :
        Rule.Similar spans 0 (Node.Similar spans) rule rule' := by
      intro tokens tokens' same bound
      cases same with
      | nil => rw [left, right]; exact .error .nil
      | cons _ _ => simp at bound
    exact {
      expression := empty .expression (by cases depth <;> rfl) (by cases depth' <;> rfl)
      comparison := empty .comparison (by cases depth <;> rfl) (by cases depth' <;> rfl)
      factor := empty .atom (by cases depth <;> rfl) (by cases depth' <;> rfl)
      statement := empty .statement (by cases depth <;> rfl) (by cases depth' <;> rfl)
      statements := empty .statement (by cases depth <;> rfl) (by cases depth' <;> rfl) }
  | succ length ih =>
    intro depth depth' deep deep'
    obtain ⟨inner, rfl⟩ : ∃ inner, depth = inner + 1 := ⟨depth - 1, by omega⟩
    obtain ⟨inner', rfl⟩ : ∃ inner', depth' = inner' + 1 := ⟨depth' - 1, by omega⟩
    have alike := ih inner inner' (by omega) (by omega)
    exact {
      expression := alike.expressionRule through
      comparison := alike.comparisonRule through
      factor := alike.factorRule through
      statement := alike.statementRule through
      statements := alike.statementsRule through }

/-- The rules with room to nest that depends on how many tokens there are. -/
def withRoom (room : Nat → Nat) : Grammar where
  expression tokens := (nested (room tokens.length)).expression tokens
  comparison tokens := (nested (room tokens.length)).comparison tokens
  factor tokens := (nested (room tokens.length)).factor tokens
  statement tokens := (nested (room tokens.length)).statement tokens
  statements tokens := (nested (room tokens.length)).statements tokens

/-- With enough room, how much of it there is makes no difference. -/
theorem withRoom_similar {spans : Span → Span → Prop} (through : Span.RespectsThrough spans)
    {length : Nat} {room room' : Nat → Nat} (enough : ∀ count ≤ length, count ≤ room count)
    (enough' : ∀ count ≤ length, count ≤ room' count) :
    Grammar.Similar spans length (withRoom room) (withRoom room') := by
  -- Alike lists of tokens are equally long, so both rules nest deep enough for both.
  have similar {tokens tokens' : List Token} (same : TokensAlike spans tokens tokens')
      (bound : tokens.length ≤ length) :
      Grammar.Similar spans tokens.length (nested (room tokens.length))
        (nested (room' tokens'.length)) := by
    rw [← same.length_eq]
    exact nested_similar through _ _ _ (enough _ bound) (enough' _ bound)
  exact {
    expression := fun _ _ same bound =>
      (similar same bound).expression _ _ same (Nat.le_refl _)
    comparison := fun _ _ same bound =>
      (similar same bound).comparison _ _ same (Nat.le_refl _)
    factor := fun _ _ same bound =>
      (similar same bound).factor _ _ same (Nat.le_refl _)
    statement := fun _ _ same bound =>
      (similar same bound).statement _ _ same (Nat.le_refl _)
    statements := fun _ _ same bound =>
      (similar same bound).statements _ _ same (Nat.le_refl _) }

/-- The rules with as much room to nest as they can need. -/
def full : Grammar := withRoom id

/-- What the full grammar makes of tokens depends on their kinds only. -/
theorem full_similar {spans : Span → Span → Prop} (through : Span.RespectsThrough spans)
    (length : Nat) : Grammar.Similar spans length full full :=
  withRoom_similar through (fun _ _ => Nat.le_refl _) (fun _ _ => Nat.le_refl _)

/-- Equality is a relation that ranges from one span to another keep. -/
theorem eq_respectsThrough : Span.RespectsThrough (· = ·) := by
  intro first first' last last' firsts lasts
  rw [firsts, lasts]

/-- Rules that make the same of the same tokens have the same results. -/
theorem eq_of_similar {rule rule' : Rule Node} {length : Nat} {tokens : List Token}
    (alike : Rule.Similar (· = ·) length (Node.Similar (· = ·)) rule rule')
    (bound : tokens.length ≤ length) : rule tokens = rule' tokens := by
  -- Tokens that are alike and have the same ranges are the same.
  have equal : ∀ {left right : List Token}, TokensAlike (· = ·) left right → left = right := by
    intro left right same
    induction same with
    | nil => rfl
    | @cons token token' _ _ same _ ih =>
      obtain ⟨kind, span⟩ := token
      obtain ⟨kind', span'⟩ := token'
      obtain ⟨rfl, rfl⟩ := same
      rw [ih]
  have same : TokensAlike (· = ·) tokens tokens := List.forall₂_same.mpr fun _ _ => ⟨rfl, rfl⟩
  have read := alike tokens tokens same bound
  generalize rule tokens = parsed, rule' tokens = parsed' at read
  cases read with
  | ok alike left _ => rw [Node.Similar.eq _ _ alike, equal left]
  | error left => rw [equal left]

/-- Rules with room for so much nesting are those of the full grammar on so many tokens. -/
theorem nested_similar_full (length : Nat) :
    Grammar.Similar (· = ·) length (nested length) full := by
  -- The room is the same whatever the tokens are.
  change Grammar.Similar (· = ·) length (withRoom fun _ => length) (withRoom id)
  exact withRoom_similar eq_respectsThrough (fun _ bound => bound) (fun _ _ => Nat.le_refl _)

/-- A rule is its definition if it uses one level of nesting with its first token. -/
theorem eq_definition {rule definition : Rule Node} (inner : Nat → Rule Node)
    (empty : rule [] = definition [])
    (unfolded : ∀ token rest, rule (token :: rest) = inner rest.length (token :: rest))
    (alike : ∀ length, Rule.Similar (· = ·) (length + 1) (Node.Similar (· = ·)) (inner length)
      definition) : rule = definition := by
  -- The level below has room for all tokens behind the first one.
  funext tokens
  cases tokens with
  | nil => exact empty
  | cons token rest =>
    rw [unfolded]
    exact eq_of_similar (alike rest.length) (Nat.le_refl _)

/-- Expressions of the full grammar are read by their definition in terms of the full grammar. -/
theorem full_expression : full.expression = full.expressionRule :=
  eq_definition (fun length => (nested length).expressionRule) rfl (fun _ _ => rfl) fun length =>
    (nested_similar_full length).expressionRule eq_respectsThrough

/-- The same for comparisons. -/
theorem full_comparison : full.comparison = full.comparisonRule :=
  eq_definition (fun length => (nested length).comparisonRule) rfl (fun _ _ => rfl) fun length =>
    (nested_similar_full length).comparisonRule eq_respectsThrough

/-- The same for factors. -/
theorem full_factor : full.factor = full.factorRule :=
  eq_definition (fun length => (nested length).factorRule) rfl (fun _ _ => rfl) fun length =>
    (nested_similar_full length).factorRule eq_respectsThrough

/-- The same for statements. -/
theorem full_statement : full.statement = full.statementRule :=
  eq_definition (fun length => (nested length).statementRule) rfl (fun _ _ => rfl) fun length =>
    (nested_similar_full length).statementRule eq_respectsThrough

/-- The same for sequences of statements. -/
theorem full_statements : full.statements = full.statementsRule :=
  eq_definition (fun length => (nested length).statementsRule) rfl (fun _ _ => rfl) fun length =>
    (nested_similar_full length).statementsRule eq_respectsThrough

end Grammar

/-- A program is a sequence of statements of the full grammar up to the end of the text. -/
theorem parseProgram_eq (tokens : List Token) :
    parseProgram tokens =
      (do
        let program ← Grammar.full.statements
        let _ ← Rule.token .endOfText .nothing
        return program : Rule Node) tokens := rfl

end Scriptlet
