import Scriptlet.Proofs.Syntax.Printer
import Scriptlet.Syntax.Grammar

/-!
The grammar of the language as a book would give it: which sequences of tokens are phrases, and which
trees they stand for. Nothing here depends on how phrases are found.
-/

namespace Scriptlet

/-- The operators of a level. -/
def Level.operators : Level → List BinaryOperator
  | .logical => [.and, .or]
  | .comparison => [.equal, .notEqual, .less, .greater, .lessEqual, .greaterEqual]
  | .additive => [.add, .sub]
  | .multiplicative => [.mul, .div, .rem]
  | .power => [.pow]

/-- The kinds of phrases; operands with operators of one level between them are one kind. -/
inductive Phrase where
  | statements | statement | expression | operations (level : Level) | comparison | factor | call | atom

/-- What stands first at a level. -/
def Level.first : Level → Phrase
  | .logical => .comparison
  | .comparison => .operations .additive
  | .additive => .operations .multiplicative
  | .multiplicative => .factor
  | .power => .call

/-- What stands behind an operator of a level. -/
def Level.later : Level → Phrase
  | .power => .factor
  | level => level.first

/-- A word of its own introduces a function, with its name and its parameters. -/
def functionHead (name : Option String) (parameters : List String) : List TokenKind :=
  .keyword .funWord :: name.toList.map .identifier ++ .symbol .leftParen ::
    separated (.symbol .comma) (parameters.map fun name => [.identifier name]) ++
    [.symbol .rightParen]

mutual

/-- Kinds of tokens that are a phrase, and the tree that they stand for. -/
inductive Derives : Phrase → List TokenKind → Node → Prop where
  | statements {before after : Nat} {front rear : List TokenKind} {node : Node} {nodes : List Node}
    {span : Span} (first : Derives .statement front node) (others : DerivesLines rear nodes) :
    Derives .statements (List.replicate before .newline ++ front ++ rear ++
      List.replicate after .newline) (.sequence span (node :: nodes))
  | returning {kinds : List TokenKind} {value : Option Node} {span : Span}
    (values : DerivesOption [] kinds value) :
    Derives .statement (.keyword .returnWord :: kinds) (.returning span value)
  | continuing {span : Span} : Derives .statement [.keyword .continueWord] (.continuing span)
  | breaking {span : Span} : Derives .statement [.keyword .breakWord] (.breaking span)
  | expression {kinds : List TokenKind} {node : Node} (inner : Derives .expression kinds node) :
    Derives .statement kinds node
  | assign {kinds : List TokenKind} {name : String} {value : Node} {span : Span}
    (values : Derives .expression kinds value) :
    Derives .expression (.keyword .varWord :: .identifier name :: .symbol .assign :: kinds)
      (.assign span name value)
  | logical {kinds : List TokenKind} {node : Node}
    (inner : Derives (.operations .logical) kinds node) : Derives .expression kinds node
  | first {kinds : List TokenKind} {node : Node} {level : Level}
    (inner : Derives level.first kinds node) : Derives (.operations level) kinds node
  | next {front rear : List TokenKind} {left right : Node} {operator : BinaryOperator} {level : Level}
    {span : Span} (lefts : Derives (.operations level) front left)
    (known : operator ∈ level.operators) (rights : Derives level.later rear right) :
    Derives (.operations level) (front ++ operator.kind :: rear) (.binary span operator left right)
  | negation {kinds : List TokenKind} {operand : Node} {span : Span}
    (inner : Derives .comparison kinds operand) :
    Derives .comparison (.keyword .notWord :: kinds) (.unary span .not operand)
  | comparison {kinds : List TokenKind} {node : Node}
    (inner : Derives (.operations .comparison) kinds node) : Derives .comparison kinds node
  | signed {kinds : List TokenKind} {operand : Node} {operator : UnaryOperator} {span : Span}
    (known : operator ∈ [.plus, .negate]) (inner : Derives .factor kinds operand) :
    Derives .factor (operator.kind :: kinds) (.unary span operator operand)
  | power {kinds : List TokenKind} {node : Node}
    (inner : Derives (.operations .power) kinds node) : Derives .factor kinds node
  | atom {kinds : List TokenKind} {node : Node} (inner : Derives .atom kinds node) :
    Derives .call kinds node
  | call {front rear : List TokenKind} {callee : Node} {arguments : List Node} {span : Span}
    (callees : Derives .call front callee) (each : DerivesItems rear arguments) :
    Derives .call (front ++ .symbol .leftParen :: rear ++ [.symbol .rightParen])
      (.call span callee arguments)
  | int {value : Int64} {span : Span} : Derives .atom [.int value] (.int span value)
  | float {value : Float} {span : Span} : Derives .atom [.float value] (.float span value)
  | text {value : String} {span : Span} : Derives .atom [.text value] (.text span value)
  | reference {name : String} {span : Span} :
    Derives .atom [.identifier name] (.reference span name)
  | parenthesised {kinds : List TokenKind} {node : Node} (inner : Derives .expression kinds node) :
    Derives .atom (.symbol .leftParen :: kinds ++ [.symbol .rightParen]) node
  | list {kinds : List TokenKind} {items : List Node} {span : Span}
    (each : DerivesItems kinds items) :
    Derives .atom (.symbol .leftBracket :: kinds ++ [.symbol .rightBracket]) (.list span items)
  | conditional {kinds : List TokenKind} {choices : Choices} {span : Span}
    (branches : DerivesBranches .ifWord kinds choices) :
    Derives .atom kinds (.conditional span choices)
  | forLoop {start stop middle rear : List TokenKind} {name : String} {first bound : Node}
    {step : Option Node} {body : Node} {form : BodyForm} {span : Span}
    (firsts : Derives .expression start first) (bounds : Derives .expression stop bound)
    (steps : DerivesOption [.keyword .stepWord] middle step) (bodies : DerivesBody form rear body) :
    Derives .atom (.keyword .forWord :: .identifier name :: .symbol .assign :: start ++
      .keyword .toWord :: stop ++ middle ++ .keyword .thenWord :: rear ++ form.closing)
      (.forLoop span name first bound step body form)
  | whileLoop {front rear : List TokenKind} {condition body : Node} {form : BodyForm} {span : Span}
    (conditions : Derives .expression front condition) (bodies : DerivesBody form rear body) :
    Derives .atom (.keyword .whileWord :: front ++ .keyword .thenWord :: rear ++ form.closing)
      (.whileLoop span condition body form)
  | arrow {kinds : List TokenKind} {name : Option String} {parameters : List String} {body : Node}
    {span : Span} (inner : Derives .expression kinds body) :
    Derives .atom (functionHead name parameters ++ .symbol .arrow :: kinds)
      (.function span name parameters body .inline)
  | function {kinds : List TokenKind} {name : Option String} {parameters : List String} {body : Node}
    {span : Span} (inner : Derives .statements kinds body) :
    Derives .atom (functionHead name parameters ++ .newline :: kinds ++ [.keyword .endWord])
      (.function span name parameters body .block)

/-- Statements in a row, each behind one newline or more. -/
inductive DerivesLines : List TokenKind → List Node → Prop where
  | nil : DerivesLines [] []
  | cons {more : Nat} {front rear : List TokenKind} {node : Node} {nodes : List Node}
    (first : Derives .statement front node) (others : DerivesLines rear nodes) :
    DerivesLines (List.replicate (more + 1) .newline ++ front ++ rear) (node :: nodes)

/-- An expression behind the kinds that introduce it, or nothing at all. -/
inductive DerivesOption : List TokenKind → List TokenKind → Option Node → Prop where
  | none {before : List TokenKind} : DerivesOption before [] none
  | some {before kinds : List TokenKind} {node : Node} (inner : Derives .expression kinds node) :
    DerivesOption before (before ++ kinds) (some node)

/-- Expressions with commas between them, or none at all. -/
inductive DerivesItems : List TokenKind → List Node → Prop where
  | nil : DerivesItems [] []
  | cons {front rear : List TokenKind} {node : Node} {nodes : List Node}
    (first : Derives .expression front node) (others : DerivesMoreItems rear nodes) :
    DerivesItems (front ++ rear) (node :: nodes)

/-- Expressions in a row, each behind a comma. -/
inductive DerivesMoreItems : List TokenKind → List Node → Prop where
  | nil : DerivesMoreItems [] []
  | cons {front rear : List TokenKind} {node : Node} {nodes : List Node}
    (first : Derives .expression front node) (others : DerivesMoreItems rear nodes) :
    DerivesMoreItems (.symbol .comma :: front ++ rear) (node :: nodes)

/-- A body: one statement, or statements behind a newline. -/
inductive DerivesBody : BodyForm → List TokenKind → Node → Prop where
  | inline {kinds : List TokenKind} {node : Node} (inner : Derives .statement kinds node) :
    DerivesBody .inline kinds node
  | block {kinds : List TokenKind} {node : Node} (inner : Derives .statements kinds node) :
    DerivesBody .block (.newline :: kinds) node

/-- A condition behind a given word, its body, and what comes behind that. -/
inductive DerivesBranches : Keyword → List TokenKind → Choices → Prop where
  | test {word : Keyword} {front middle rear : List TokenKind} {condition body : Node}
    {form : BodyForm} {rest : Choices} (conditions : Derives .expression front condition)
    (bodies : DerivesBody form middle body) (others : DerivesRest form rear rest) :
    DerivesBranches word (.keyword word :: front ++ .keyword .thenWord :: middle ++ rear)
      (.test condition body form rest)

/--
What comes behind a body of some form in a conditional: another branch, a body for all other cases,
or the end of a block.
-/
inductive DerivesRest : BodyForm → List TokenKind → Choices → Prop where
  | another {last : BodyForm} {kinds : List TokenKind} {choices : Choices}
    (branches : DerivesBranches .elifWord kinds choices) : DerivesRest last kinds choices
  | otherwise {last form : BodyForm} {kinds : List TokenKind} {body : Node}
    (bodies : DerivesBody form kinds body) :
    DerivesRest last (.keyword .elseWord :: kinds ++ form.closing) (.otherwise body form)
  | closed {last : BodyForm} : DerivesRest last last.closing .none

end

/-- Whether a reserved word is an operator. -/
def Keyword.isOperator : Keyword → Bool
  | .andWord | .orWord | .notWord => true
  | _ => false

/-- Whether a symbol is an operator, and not only punctuation. -/
def Symbol.isOperator : Symbol → Bool
  | .leftParen | .rightParen | .leftBracket | .rightBracket | .comma | .arrow | .assign => false
  | _ => true

/-- Whether a token is a literal, a name or an operator. -/
def TokenKind.isWord : TokenKind → Bool
  | .int _ | .float _ | .text _ | .identifier _ => true
  | .keyword word => word.isOperator
  | .symbol sign => sign.isOperator
  | _ => false

mutual

/-- The literals, names and operators of a tree, in the order of the source. -/
def Node.words : Node → List TokenKind
  | .int _ value => [.int value]
  | .float _ value => [.float value]
  | .text _ value => [.text value]
  | .list _ items => Node.wordsOfAll items
  | .reference _ name => [.identifier name]
  | .assign _ name value => .identifier name :: value.words
  | .binary _ operator left right => left.words ++ operator.kind :: right.words
  | .unary _ operator operand => operator.kind :: operand.words
  | .conditional _ choices => choices.words
  | .forLoop _ name first bound step body _ =>
    .identifier name :: first.words ++ bound.words ++ Node.wordsOfOption step ++ body.words
  | .whileLoop _ condition body _ => condition.words ++ body.words
  | .function _ name parameters body _ =>
    name.toList.map .identifier ++ parameters.map .identifier ++ body.words
  | .call _ callee arguments => callee.words ++ Node.wordsOfAll arguments
  | .sequence _ statements => Node.wordsOfAll statements
  | .returning _ value => Node.wordsOfOption value
  | .continuing _ | .breaking _ => []

/-- The words of trees in a row. -/
def Node.wordsOfAll : List Node → List TokenKind
  | [] => []
  | node :: rest => node.words ++ Node.wordsOfAll rest

/-- The words of a tree that may be missing. -/
def Node.wordsOfOption : Option Node → List TokenKind
  | none => []
  | some node => node.words

/-- The words of conditions and bodies. -/
def Choices.words : Choices → List TokenKind
  | .none => []
  | .otherwise body _ => body.words
  | .test condition body _ rest => condition.words ++ body.words ++ rest.words

end

/-- The literals, names and operators among some tokens. -/
def TokenKind.wordsOf (kinds : List TokenKind) : List TokenKind :=
  kinds.filter TokenKind.isWord

namespace TokenKind

@[simp] theorem wordsOf_nil : wordsOf [] = [] := rfl

@[simp] theorem wordsOf_append (front rear : List TokenKind) :
    wordsOf (front ++ rear) = wordsOf front ++ wordsOf rear :=
  List.filter_append front rear

/-- A word comes before the words behind it. -/
theorem wordsOf_cons {kind : TokenKind} (word : kind.isWord = true) (kinds : List TokenKind) :
    wordsOf (kind :: kinds) = kind :: wordsOf kinds :=
  List.filter_cons_of_pos word

/-- What is no word does not count. -/
theorem wordsOf_silent {kind : TokenKind} (silent : kind.isWord = false) (kinds : List TokenKind) :
    wordsOf (kind :: kinds) = wordsOf kinds :=
  List.filter_cons_of_neg (by simp [silent])

@[simp] theorem wordsOf_name (name : String) (kinds : List TokenKind) :
    wordsOf (.identifier name :: kinds) = .identifier name :: wordsOf kinds :=
  wordsOf_cons rfl kinds

/-- Every operator is a word. -/
@[simp] theorem wordsOf_binary (operator : BinaryOperator) (kinds : List TokenKind) :
    wordsOf (operator.kind :: kinds) = operator.kind :: wordsOf kinds :=
  wordsOf_cons (by cases operator <;> rfl) kinds

@[simp] theorem wordsOf_unary (operator : UnaryOperator) (kinds : List TokenKind) :
    wordsOf (operator.kind :: kinds) = operator.kind :: wordsOf kinds :=
  wordsOf_cons (by cases operator <;> rfl) kinds

/-- Newlines are no words. -/
@[simp] theorem wordsOf_newlines (count : Nat) :
    wordsOf (List.replicate count .newline) = [] := by
  induction count with
  | zero => rfl
  | succ count ih => rw [List.replicate_succ, wordsOf_silent rfl, ih]

/-- The end of a block is no word. -/
@[simp] theorem wordsOf_closing (form : BodyForm) : wordsOf form.closing = [] := by
  cases form <;> rfl

/-- Names are words. -/
@[simp] theorem wordsOf_names (names : List String) :
    wordsOf (names.map .identifier) = names.map .identifier := by
  induction names with
  | nil => rfl
  | cons name rest ih => simp [ih]

/-- Of the head of a function only names are words. -/
@[simp] theorem wordsOf_functionHead (name : Option String) (parameters : List String) :
    wordsOf (functionHead name parameters) =
      name.toList.map .identifier ++ parameters.map .identifier := by
  have others : ∀ names : List String,
      wordsOf ((names.map fun name => [.identifier name]).flatMap (.symbol .comma :: ·)) =
        names.map .identifier := by
    intro names
    induction names with
    | nil => rfl
    | cons name rest ih => simp (disch := decide) [wordsOf_silent, ih]
  cases parameters with
  | nil => simp (disch := decide) [functionHead, separated, wordsOf_silent]
  | cons first more => simp (disch := decide) [functionHead, separated, wordsOf_silent, others]

end TokenKind

open TokenKind (wordsOf wordsOf_silent)

mutual

/-- A tree has the literals, names and operators of the tokens that it stands for, in their order. -/
theorem Derives.words : ∀ {phrase kinds node}, Derives phrase kinds node → wordsOf kinds = node.words
  | _, _, _, .statements first others => by
    simp [Node.words, Node.wordsOfAll, first.words, others.words]
  | _, _, _, .returning values => by
    rw [wordsOf_silent rfl, values.words rfl, Node.words]
  | _, _, _, .continuing | _, _, _, .breaking => rfl
  | _, _, _, .assign values => by
    simp (disch := decide) [wordsOf_silent, Node.words, values.words]
  | _, _, _, .next lefts _ rights => by simp [Node.words, lefts.words, rights.words]
  | _, _, _, .negation inner => by
    rw [Node.words, ← inner.words]
    exact TokenKind.wordsOf_unary .not _
  | _, _, _, .signed _ inner => by simp [Node.words, inner.words]
  | _, _, _, .call callees each => by
    simp (disch := decide) [wordsOf_silent, Node.words, callees.words, each.words]
  | _, _, _, .int | _, _, _, .float | _, _, _, .text | _, _, _, .reference => rfl
  | _, _, _, .parenthesised inner => by simp (disch := decide) [wordsOf_silent, inner.words]
  | _, _, _, .list each => by simp (disch := decide) [wordsOf_silent, Node.words, each.words]
  | _, _, _, .conditional branches => branches.words rfl
  | _, _, _, .forLoop firsts bounds steps bodies => by
    simp (disch := decide) [wordsOf_silent, Node.words, firsts.words, bounds.words, steps.words,
      bodies.words]
  | _, _, _, .whileLoop conditions bodies => by
    simp (disch := decide) [wordsOf_silent, Node.words, conditions.words, bodies.words]
  | _, _, _, .arrow inner | _, _, _, .function inner => by
    simp (disch := decide) [wordsOf_silent, Node.words, inner.words]
  -- All other phrases are phrases of another kind by themselves.
  | _, _, _, .expression inner | _, _, _, .logical inner | _, _, _, .first inner
  | _, _, _, .comparison inner | _, _, _, .power inner | _, _, _, .atom inner => inner.words

/-- Statements in a row have the words of their tokens. -/
theorem DerivesLines.words : ∀ {kinds nodes}, DerivesLines kinds nodes →
    wordsOf kinds = Node.wordsOfAll nodes
  | _, _, .nil => rfl
  | _, _, .cons first others => by simp [Node.wordsOfAll, first.words, others.words]

/-- An expression that may be missing has the words of its tokens, behind what holds none. -/
theorem DerivesOption.words : ∀ {before kinds node}, DerivesOption before kinds node →
    wordsOf before = [] → wordsOf kinds = Node.wordsOfOption node
  | _, _, _, .none, _ => rfl
  | _, _, _, .some inner, silent => by simp [Node.wordsOfOption, inner.words, silent]

/-- Expressions between commas have the words of their tokens. -/
theorem DerivesItems.words : ∀ {kinds nodes}, DerivesItems kinds nodes →
    wordsOf kinds = Node.wordsOfAll nodes
  | _, _, .nil => rfl
  | _, _, .cons first others => by simp [Node.wordsOfAll, first.words, others.words]

/-- Expressions behind commas have the words of their tokens. -/
theorem DerivesMoreItems.words : ∀ {kinds nodes}, DerivesMoreItems kinds nodes →
    wordsOf kinds = Node.wordsOfAll nodes
  | _, _, .nil => rfl
  | _, _, .cons first others => by
    simp (disch := decide) [wordsOf_silent, Node.wordsOfAll, first.words, others.words]

/-- A body has the words of its tokens. -/
theorem DerivesBody.words : ∀ {form kinds node}, DerivesBody form kinds node →
    wordsOf kinds = node.words
  | _, _, _, .inline inner => inner.words
  | _, _, _, .block inner => by rw [wordsOf_silent rfl, inner.words]

/-- Branches behind a word that is no operator have the words of their tokens. -/
theorem DerivesBranches.words : ∀ {word kinds choices}, DerivesBranches word kinds choices →
    word.isOperator = false → wordsOf kinds = choices.words
  | word, _, _, .test conditions bodies others, structural => by
    have silent : (TokenKind.keyword word).isWord = false := structural
    simp only [List.cons_append, wordsOf_silent silent]
    simp (disch := decide) [wordsOf_silent, Choices.words, conditions.words, bodies.words,
      others.words]

/-- What comes behind a body in a conditional has the words of its tokens. -/
theorem DerivesRest.words : ∀ {last kinds choices}, DerivesRest last kinds choices →
    wordsOf kinds = choices.words
  | _, _, _, .another branches => branches.words rfl
  | _, _, _, .otherwise bodies => by
    simp (disch := decide) [wordsOf_silent, Choices.words, bodies.words]
  | last, _, _, .closed => TokenKind.wordsOf_closing last

end

end Scriptlet
