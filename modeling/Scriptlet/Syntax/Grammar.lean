import Scriptlet.Syntax.Rule
import Scriptlet.Token.Lexer

/-! The grammar of the language, from atoms up to programs. -/

namespace Scriptlet

/-- The operator that a token stands for between two operands. -/
def TokenKind.operator? : TokenKind → Option BinaryOperator
  | .symbol .plus => some .add
  | .symbol .minus => some .sub
  | .symbol .star => some .mul
  | .symbol .slash => some .div
  | .symbol .percent => some .rem
  | .symbol .caret => some .pow
  | .symbol .equal => some .equal
  | .symbol .notEqual => some .notEqual
  | .symbol .less => some .less
  | .symbol .greater => some .greater
  | .symbol .lessEqual => some .lessEqual
  | .symbol .greaterEqual => some .greaterEqual
  | .keyword .andWord => some .and
  | .keyword .orWord => some .or
  | _ => none

/-- The levels of operators between two operands, from the loosest to the tightest. -/
inductive Level where
  | logical | comparison | additive | multiplicative | power
deriving DecidableEq, Repr

/-- The level of an operator. -/
def BinaryOperator.level : BinaryOperator → Level
  | .and | .or => .logical
  | .equal | .notEqual | .less | .greater | .lessEqual | .greaterEqual => .comparison
  | .add | .sub => .additive
  | .mul | .div | .rem => .multiplicative
  | .pow => .power

/-- The operator of one level that a token stands for. -/
def TokenKind.operatorAt? (level : Level) (kind : TokenKind) : Option BinaryOperator :=
  kind.operator?.filter fun operator => operator.level = level

/-- The rules that other rules come back to once they have read a token. -/
structure Grammar where
  expression : Rule Node
  comparison : Rule Node
  factor : Rule Node
  statement : Rule Node
  statements : Rule Node

namespace Grammar

/-- What a rule reads after a comma, if a comma comes next. -/
def afterComma {α : Type} (item : Rule α) : Rule (Option α) := do
  match ← Rule.token? (.symbol .comma) with
  | none => return none
  | some _ => return some (← item)

/-- Expressions between commas up to a closing symbol, whose range is answered too. -/
def delimited (grammar : Grammar) (closing : Symbol) (first next : Expectation) :
    Rule (List Node × Span) := do
  match ← Rule.token? (.symbol closing) with
  | some close => return ([], close.span)
  | none =>
    let item ← grammar.expression.orExpected first
    let more ← Rule.many (afterComma grammar.expression)
    let close ← Rule.symbol closing next
    return (item :: more, close.span)

/-- The body after `THEN` or `ELSE`: a block if a newline comes first, and one statement if not. -/
def body (grammar : Grammar) : Rule (Node × BodyForm) := do
  match ← Rule.token? .newline with
  | some _ => return (← grammar.statements, .block)
  | none => return (← grammar.statement, .inline)

/-- The end of a body: a block is closed by a word of its own. -/
def bodyEnd (form : BodyForm) (expected : Expectation) : Rule Unit :=
  match form with
  | .inline => pure ()
  | .block => do
    let _ ← Rule.keyword .endWord expected
    return ()

/-- A body with its end. -/
def closedBody (grammar : Grammar) : Rule (Node × BodyForm) := do
  let (body, form) ← grammar.body
  bodyEnd form .endWord
  return (body, form)

/-- A condition and the body that it guards. -/
structure Branch where
  condition : Node
  body : Node
  form : BodyForm

/-- A branch in front of other choices. -/
def Branch.before (branch : Branch) (rest : Choices) : Choices :=
  .test branch.condition branch.body branch.form rest

/-- One condition and its body. -/
def branch (grammar : Grammar) : Rule Branch := do
  let condition ← grammar.expression
  let _ ← Rule.keyword .thenWord .thenWord
  let (body, form) ← grammar.body
  return { condition, body, form }

/-- One more branch, if `ELIF` comes next. -/
def anotherBranch (grammar : Grammar) : Rule (Option Branch) := do
  match ← Rule.token? (.keyword .elifWord) with
  | none => return none
  | some _ => return some (← grammar.branch)

/-- What comes after the last branch: the body for all other cases, or the end of a block. -/
def otherwise (grammar : Grammar) (lastForm : BodyForm) : Rule Choices := do
  match ← Rule.token? (.keyword .elseWord) with
  | some _ =>
    let (body, form) ← grammar.closedBody
    return .otherwise body form
  | none =>
    bodyEnd lastForm .nextBranch
    return .none

/-- A conditional after its first word. -/
def conditional (grammar : Grammar) (word : Span) : Rule Node := do
  let first ← grammar.branch
  let more ← Rule.many grammar.anotherBranch
  let last ← grammar.otherwise (more.getLast?.getD first).form
  let choices := (first :: more).foldr Branch.before last
  return .conditional (word.through (choices.lastBody?.getD word)) choices

/-- The step of a counted loop, if there is one. -/
def step (grammar : Grammar) : Rule (Option Node) := do
  match ← Rule.token? (.keyword .stepWord) with
  | some _ => return some (← grammar.expression)
  | none => return none

/-- A counted loop after its first word. -/
def forLoop (grammar : Grammar) : Rule Node := do
  let (name, nameSpan) ← Rule.identifier .identifier
  let _ ← Rule.symbol .assign .assign
  let first ← grammar.expression
  let _ ← Rule.keyword .toWord .toWord
  let bound ← grammar.expression
  let step ← grammar.step
  let _ ← Rule.keyword .thenWord .thenWord
  let (body, form) ← grammar.closedBody
  return .forLoop (nameSpan.through body.span) name first bound step body form

/-- A conditional loop after its first word. -/
def whileLoop (grammar : Grammar) : Rule Node := do
  let condition ← grammar.expression
  let _ ← Rule.keyword .thenWord .thenWord
  let (body, form) ← grammar.closedBody
  return .whileLoop (condition.span.through body.span) condition body form

/-- The name of a function and the parenthesis after it; functions may have no name. -/
def functionName : Rule (Option String)
  | ⟨.identifier name, _⟩ :: rest =>
    (do let _ ← Rule.symbol .leftParen .parameters; return some name : Rule _) rest
  | tokens =>
    (do let _ ← Rule.symbol .leftParen .identifierOrParameters; return none : Rule _) tokens

/-- The parameters of a function, and the parenthesis that closes them. -/
def parameters : Rule (List String)
  | ⟨.identifier first, _⟩ :: rest =>
    (do
      let more ← Rule.many (afterComma (Rule.identifier .identifier))
      let _ ← Rule.symbol .rightParen .nextArgument
      return first :: more.map Prod.fst : Rule _) rest
  | tokens => (do let _ ← Rule.symbol .rightParen .firstParameter; return [] : Rule _) tokens

/-- The body of a function, and where it ends: an expression after an arrow, or a block. -/
def functionBody (grammar : Grammar) : Rule (Node × BodyForm × Span) := do
  match ← Rule.token? (.symbol .arrow) with
  | some _ =>
    let body ← grammar.expression
    return (body, .inline, body.span)
  | none =>
    let _ ← Rule.token .newline .functionBody
    let body ← grammar.statements
    let close ← Rule.keyword .endWord .endWord
    return (body, .block, close.span)

/-- A function after its first word. -/
def function (grammar : Grammar) (word : Span) : Rule Node := do
  let name ← functionName
  let parameters ← parameters
  let (body, form, stop) ← grammar.functionBody
  return .function (word.through stop) name parameters body form

/-- An expression between parentheses, after the first of them. -/
def parenthesised (grammar : Grammar) : Rule Node := do
  let inner ← grammar.expression
  let _ ← Rule.symbol .rightParen .closingParenthesis
  return inner

/-- A list after its opening bracket. -/
def list (grammar : Grammar) (bracket : Span) : Rule Node := do
  let (items, close) ← grammar.delimited .rightBracket .firstElement .nextElement
  return .list (bracket.through close) items

/-- The smallest expressions: literals, variables, parentheses, lists, and what words introduce. -/
def atom (grammar : Grammar) : Rule Node
  | ⟨.int value, span⟩ :: rest => .ok (.int span value, rest)
  | ⟨.float value, span⟩ :: rest => .ok (.float span value, rest)
  | ⟨.text value, span⟩ :: rest => .ok (.text span value, rest)
  | ⟨.identifier name, span⟩ :: rest => .ok (.reference span name, rest)
  | ⟨.symbol .leftParen, _⟩ :: rest => grammar.parenthesised rest
  | ⟨.symbol .leftBracket, span⟩ :: rest => grammar.list span rest
  | ⟨.keyword .ifWord, span⟩ :: rest => grammar.conditional span rest
  | ⟨.keyword .forWord, _⟩ :: rest => grammar.forLoop rest
  | ⟨.keyword .whileWord, _⟩ :: rest => grammar.whileLoop rest
  | ⟨.keyword .funWord, span⟩ :: rest => grammar.function span rest
  | tokens => Rule.fail .atom tokens

/-- The arguments of one more call and where they end, if a parenthesis comes next. -/
def arguments (grammar : Grammar) : Rule (Option (List Node × Span)) := do
  match ← Rule.token? (.symbol .leftParen) with
  | none => return none
  | some _ => return some (← grammar.delimited .rightParen .firstArgument .nextArgument)

/-- An atom, called with each list of arguments that follows it. -/
def call (grammar : Grammar) : Rule Node := do
  let first ← grammar.atom
  let calls ← Rule.many grammar.arguments
  return calls.foldl
    (fun callee (arguments, close) => .call (callee.span.through close) callee arguments) first

/-- A call, raised to each factor that follows it. -/
def power (grammar : Grammar) : Rule Node := do
  let base ← grammar.call
  let exponents ← Rule.many (Rule.operation grammar.factor (TokenKind.operatorAt? .power))
  return exponents.foldl (fun left (operator, right) => .joined operator left right) base

/-- An operator, and the operand that it stands before. -/
def prefixed (operator : UnaryOperator) (sign : Span) (operand : Rule Node) : Rule Node := do
  let operand ← operand
  return .unary (sign.through operand.span) operator operand

/-- A power, or a factor with a sign. -/
def factorRule (grammar : Grammar) : Rule Node
  | ⟨.symbol .minus, span⟩ :: rest => prefixed .negate span grammar.factor rest
  | ⟨.symbol .plus, span⟩ :: rest => prefixed .plus span grammar.factor rest
  | tokens => grammar.power tokens

/-- Factors between signs of multiplication. -/
def multiplicative (grammar : Grammar) : Rule Node :=
  Rule.chain grammar.factorRule (TokenKind.operatorAt? .multiplicative)

/-- Products between signs of addition. -/
def additive (grammar : Grammar) : Rule Node :=
  Rule.chain grammar.multiplicative (TokenKind.operatorAt? .additive)

/-- Sums between comparisons. -/
def compared (grammar : Grammar) : Rule Node :=
  Rule.chain grammar.additive (TokenKind.operatorAt? .comparison)

/-- A comparison, or the negation of one. -/
def comparisonRule (grammar : Grammar) : Rule Node
  | ⟨.keyword .notWord, span⟩ :: rest => prefixed .not span grammar.comparison rest
  | tokens => grammar.compared.orExpected .comparison tokens

/-- Comparisons between logical operators. -/
def logical (grammar : Grammar) : Rule Node :=
  Rule.chain grammar.comparisonRule (TokenKind.operatorAt? .logical)

/-- An assignment after its first word. -/
def assignment (grammar : Grammar) : Rule Node := do
  let (name, nameSpan) ← Rule.identifier .identifier
  let _ ← Rule.symbol .assign .assign
  let value ← grammar.expression
  return .assign (nameSpan.through value.span) name value

/-- An assignment, or operators and operands. -/
def expressionRule (grammar : Grammar) : Rule Node
  | ⟨.keyword .varWord, _⟩ :: rest => grammar.assignment rest
  | tokens => grammar.logical.orExpected .expression tokens

/-- What a function returns, after the first word; it may be left out. -/
def returning (grammar : Grammar) (word : Span) : Rule Node := do
  let value ← grammar.expression.optional
  return .returning (word.through ((value.map Node.span).getD word)) value

/-- A signal that leaves a function or a round of a loop, or an expression. -/
def statementRule (grammar : Grammar) : Rule Node
  | ⟨.keyword .returnWord, span⟩ :: rest => grammar.returning span rest
  | ⟨.keyword .continueWord, span⟩ :: rest => .ok (.continuing span, rest)
  | ⟨.keyword .breakWord, span⟩ :: rest => .ok (.breaking span, rest)
  | tokens => grammar.expressionRule.orExpected .statement tokens

/-- The statement after newlines, if there are any and a statement starts there. -/
def anotherStatement (grammar : Grammar) : Rule (Option Node) := do
  if ← Rule.newlines then grammar.statementRule.optional else return none

/-- Statements between newlines. -/
def statementsRule (grammar : Grammar) : Rule Node := do
  let _ ← Rule.newlines
  let first ← grammar.statementRule
  let more ← Rule.many grammar.anotherStatement
  let last := more.getLast?.getD first
  return .sequence (first.span.through last.span) (first :: more)

/-- The rules that nest at most so deep. -/
def nested : Nat → Grammar
  | 0 =>
    { expression := Rule.fail .expression
      comparison := Rule.fail .comparison
      factor := Rule.fail .atom
      statement := Rule.fail .statement
      statements := Rule.fail .statement }
  | depth + 1 =>
    let inner := nested depth
    { expression := inner.expressionRule
      comparison := inner.comparisonRule
      factor := inner.factorRule
      statement := inner.statementRule
      statements := inner.statementsRule }

end Grammar

/-- Every rule reads a token before it comes back to one, so tokens bound how deep rules nest. -/
def parseProgram (tokens : List Token) : Parsed Node :=
  (do
    let program ← (Grammar.nested tokens.length).statements
    let _ ← Rule.token .endOfText .nothing
    return program : Rule Node) tokens

/-- The syntax tree of a program, or the first token at which it stops being one. -/
def parse (tokens : List Token) : Except SyntaxError Node :=
  match parseProgram tokens with
  | .ok (program, _) => .ok program
  | .error failure =>
    let offending := (failure.rest.head? <|> tokens.getLast?).map Token.span
    .error { cause := .unexpected failure.expected, span := offending.getD default }

/-- The syntax tree of a source, or its first fault. -/
def Source.program (source : Source) : Except SyntaxError Node :=
  source.tokens.bind parse

end Scriptlet
