import Scriptlet.Syntax.Node
import Scriptlet.Token

/-!
A canonical way to write syntax trees down: every compound expression stands in parentheses, blocks
stand on lines of their own, and the end of a block is written exactly where no other word closes it.
-/

namespace Scriptlet

/-- How an operator between two operands is written. -/
def BinaryOperator.kind : BinaryOperator → TokenKind
  | .add => .symbol .plus
  | .sub => .symbol .minus
  | .mul => .symbol .star
  | .div => .symbol .slash
  | .rem => .symbol .percent
  | .pow => .symbol .caret
  | .equal => .symbol .equal
  | .notEqual => .symbol .notEqual
  | .less => .symbol .less
  | .greater => .symbol .greater
  | .lessEqual => .symbol .lessEqual
  | .greaterEqual => .symbol .greaterEqual
  | .and => .keyword .andWord
  | .or => .keyword .orWord

/-- How an operator before one operand is written. -/
def UnaryOperator.kind : UnaryOperator → TokenKind
  | .negate => .symbol .minus
  | .plus => .symbol .plus
  | .not => .keyword .notWord

/-- A block starts on a new line. -/
def BodyForm.opening : BodyForm → List TokenKind
  | .inline => []
  | .block => [.newline]

/-- A function computes an expression, or starts a block on a new line. -/
def BodyForm.arrow : BodyForm → List TokenKind
  | .inline => [.symbol .arrow]
  | .block => [.newline]

/-- A block that no other word closes is closed by a word of its own. -/
def BodyForm.closing : BodyForm → List TokenKind
  | .inline => []
  | .block => [.keyword .endWord]

/-- Whether a construct is an expression of more than one token. -/
def Node.IsCompound : Node → Bool
  | .int _ _ | .float _ _ | .text _ _ | .reference _ _ | .sequence _ _ | .returning _ _
  | .continuing _ | .breaking _ => false
  | _ => true

/-- A compound expression is put in parentheses. -/
def Node.enclose (node : Node) (kinds : List TokenKind) : List TokenKind :=
  if node.IsCompound then .symbol .leftParen :: kinds ++ [.symbol .rightParen] else kinds

/-- Parts in a row, with a separator before each but the first. -/
def separated (separator : TokenKind) : List (List TokenKind) → List TokenKind
  | [] => []
  | first :: more => first ++ more.flatMap (separator :: ·)

mutual

/-- A construct without the parentheses around it. -/
def Node.kinds : Node → List TokenKind
  | .int _ value => [.int value]
  | .float _ value => [.float value]
  | .text _ value => [.text value]
  | .list _ items =>
    .symbol .leftBracket :: separated (.symbol .comma) (Node.writtenEach items) ++ [.symbol .rightBracket]
  | .reference _ name => [.identifier name]
  | .assign _ name value =>
    .keyword .varWord :: .identifier name :: .symbol .assign :: value.enclose value.kinds
  | .binary _ operator left right =>
    left.enclose left.kinds ++ operator.kind :: right.enclose right.kinds
  | .unary _ operator operand => operator.kind :: operand.enclose operand.kinds
  | .conditional _ choices => choices.kinds .ifWord .inline
  | .forLoop _ name first bound step body form =>
    .keyword .forWord :: .identifier name :: .symbol .assign :: first.enclose first.kinds ++
      .keyword .toWord :: bound.enclose bound.kinds ++
      Node.writtenAfter [.keyword .stepWord] step ++
      .keyword .thenWord :: form.opening ++ body.enclose body.kinds ++ form.closing
  | .whileLoop _ condition body form =>
    .keyword .whileWord :: condition.enclose condition.kinds ++
      .keyword .thenWord :: form.opening ++ body.enclose body.kinds ++ form.closing
  | .function _ name parameters body form =>
    .keyword .funWord :: (name.toList.map .identifier ++ [.symbol .leftParen]) ++
      (separated (.symbol .comma) (parameters.map fun name => [.identifier name]) ++
        [.symbol .rightParen]) ++
      form.arrow ++ body.enclose body.kinds ++ form.closing
  | .call _ callee arguments =>
    callee.enclose callee.kinds ++
      .symbol .leftParen :: separated (.symbol .comma) (Node.writtenEach arguments) ++ [.symbol .rightParen]
  | .sequence _ statements => separated .newline (Node.writtenEach statements)
  | .returning _ value => .keyword .returnWord :: Node.writtenAfter [] value
  | .continuing _ => [.keyword .continueWord]
  | .breaking _ => [.keyword .breakWord]

/-- Constructs in a row, each as it is written inside others. -/
def Node.writtenEach : List Node → List (List TokenKind)
  | [] => []
  | node :: rest => node.enclose node.kinds :: Node.writtenEach rest

/-- A construct that may be left out, behind what introduces it. -/
def Node.writtenAfter (before : List TokenKind) : Option Node → List TokenKind
  | none => []
  | some node => before ++ node.enclose node.kinds

/-- Choices behind a body of some form; the word before the first condition is given. -/
def Choices.kinds (word : Keyword) (last : BodyForm) : Choices → List TokenKind
  | .none => last.closing
  | .otherwise body form =>
    .keyword .elseWord :: form.opening ++ body.enclose body.kinds ++ form.closing
  | .test condition body form rest =>
    .keyword word :: condition.enclose condition.kinds ++
      .keyword .thenWord :: form.opening ++ body.enclose body.kinds ++ rest.kinds .elifWord form

end

/-- A construct as it is written inside others. -/
def Node.written (node : Node) : List TokenKind :=
  node.enclose node.kinds

mutual

/-- The constructs that the grammar reads as expressions. -/
inductive Node.IsExpression : Node → Prop where
  | int {span : Span} {value : Int64} : Node.IsExpression (.int span value)
  | float {span : Span} {value : Float} : Node.IsExpression (.float span value)
  | text {span : Span} {value : String} : Node.IsExpression (.text span value)
  | list {span : Span} {items : List Node} (each : ∀ item ∈ items, Node.IsExpression item) :
    Node.IsExpression (.list span items)
  | reference {span : Span} {name : String} : Node.IsExpression (.reference span name)
  | assign {span : Span} {name : String} {value : Node} (inner : Node.IsExpression value) :
    Node.IsExpression (.assign span name value)
  | binary {span : Span} {operator : BinaryOperator} {left right : Node}
    (lefts : Node.IsExpression left) (rights : Node.IsExpression right) :
    Node.IsExpression (.binary span operator left right)
  | unary {span : Span} {operator : UnaryOperator} {operand : Node}
    (inner : Node.IsExpression operand) : Node.IsExpression (.unary span operator operand)
  | conditional {span : Span} {condition body : Node} {form : BodyForm} {rest : Choices}
    (conditions : Node.IsExpression condition) (bodies : Node.IsBody form body)
    (others : Choices.IsRest rest) :
    Node.IsExpression (.conditional span (.test condition body form rest))
  | forLoop {span : Span} {name : String} {first bound : Node} {step : Option Node} {body : Node}
    {form : BodyForm} (firsts : Node.IsExpression first) (bounds : Node.IsExpression bound)
    (steps : ∀ found ∈ step, Node.IsExpression found) (bodies : Node.IsBody form body) :
    Node.IsExpression (.forLoop span name first bound step body form)
  | whileLoop {span : Span} {condition body : Node} {form : BodyForm}
    (conditions : Node.IsExpression condition) (bodies : Node.IsBody form body) :
    Node.IsExpression (.whileLoop span condition body form)
  | arrow {span : Span} {name : Option String} {parameters : List String} {body : Node}
    (inner : Node.IsExpression body) :
    Node.IsExpression (.function span name parameters body .inline)
  | function {span : Span} {name : Option String} {parameters : List String} {body : Node}
    (bodies : Node.IsBlock body) : Node.IsExpression (.function span name parameters body .block)
  | call {span : Span} {callee : Node} {arguments : List Node} (callees : Node.IsExpression callee)
    (each : ∀ argument ∈ arguments, Node.IsExpression argument) :
    Node.IsExpression (.call span callee arguments)

/-- The constructs that the grammar reads as statements. -/
inductive Node.IsStatement : Node → Prop where
  | expression {node : Node} (inner : Node.IsExpression node) : Node.IsStatement node
  | returning {span : Span} {value : Option Node} (values : ∀ found ∈ value, Node.IsExpression found) :
    Node.IsStatement (.returning span value)
  | continuing {span : Span} : Node.IsStatement (.continuing span)
  | breaking {span : Span} : Node.IsStatement (.breaking span)

/-- The constructs that the grammar reads as statements in a row. -/
inductive Node.IsBlock : Node → Prop where
  | sequence {span : Span} {statements : List Node} (nonempty : statements ≠ [])
    (each : ∀ statement ∈ statements, Node.IsStatement statement) :
    Node.IsBlock (.sequence span statements)

/-- The constructs that the grammar reads as bodies of some form. -/
inductive Node.IsBody : BodyForm → Node → Prop where
  | inline {body : Node} (inner : Node.IsStatement body) : Node.IsBody .inline body
  | block {body : Node} (inner : Node.IsBlock body) : Node.IsBody .block body

/-- What the grammar reads behind the first condition and its body. -/
inductive Choices.IsRest : Choices → Prop where
  | none : Choices.IsRest .none
  | otherwise {body : Node} {form : BodyForm} (bodies : Node.IsBody form body) :
    Choices.IsRest (.otherwise body form)
  | test {condition body : Node} {form : BodyForm} {rest : Choices}
    (conditions : Node.IsExpression condition) (bodies : Node.IsBody form body)
    (others : Choices.IsRest rest) : Choices.IsRest (.test condition body form rest)

end

end Scriptlet
