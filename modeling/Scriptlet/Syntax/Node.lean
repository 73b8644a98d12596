import Scriptlet.Source

/-! Syntax trees: every construct of the language with the range it was read from. -/

namespace Scriptlet

/-- The operators between two operands. -/
inductive BinaryOperator where
  | add | sub | mul | div | rem | pow
  | equal | notEqual | less | greater | lessEqual | greaterEqual
  | and | or
deriving DecidableEq, Repr

/-- The operators before one operand. -/
inductive UnaryOperator where
  | negate | plus | not
deriving DecidableEq, Repr

/-- Bodies on the line of their header yield their value; blocks on lines of their own do not. -/
inductive BodyForm where
  | inline | block
deriving DecidableEq, Repr

mutual

/-- A construct of the language; statements are constructs like any other. -/
inductive Node where
  | int (span : Span) (value : Int64)
  | float (span : Span) (value : Float)
  | text (span : Span) (value : String)
  | list (span : Span) (items : List Node)
  | reference (span : Span) (name : String)
  | assign (span : Span) (name : String) (value : Node)
  | binary (span : Span) (operator : BinaryOperator) (left right : Node)
  | unary (span : Span) (operator : UnaryOperator) (operand : Node)
  | conditional (span : Span) (choices : Choices)
  | forLoop (span : Span) (name : String) (first bound : Node) (step : Option Node) (body : Node)
      (form : BodyForm)
  | whileLoop (span : Span) (condition body : Node) (form : BodyForm)
  | function (span : Span) (name : Option String) (parameters : List String) (body : Node)
      (form : BodyForm)
  | call (span : Span) (callee : Node) (arguments : List Node)
  | sequence (span : Span) (statements : List Node)
  | returning (span : Span) (value : Option Node)
  | continuing (span : Span)
  | breaking (span : Span)

/-- The bodies that a conditional chooses from, in the order in which their conditions are tried. -/
inductive Choices where
  | none
  | otherwise (body : Node) (form : BodyForm)
  | test (condition body : Node) (form : BodyForm) (rest : Choices)

end

instance : Inhabited Node := ⟨.sequence default []⟩

/-- The range that a construct was read from. -/
def Node.span : Node → Span
  | .int span _ | .float span _ | .text span _ | .list span _ | .reference span _ | .assign span _ _
  | .binary span _ _ _ | .unary span _ _ | .conditional span _ | .forLoop span _ _ _ _ _ _
  | .whileLoop span _ _ _ | .function span _ _ _ _ | .call span _ _ | .sequence span _
  | .returning span _ | .continuing span | .breaking span => span

/-- An operator with its operands, which reaches from the first to the last of them. -/
def Node.joined (operator : BinaryOperator) (left right : Node) : Node :=
  .binary (left.span.through right.span) operator left right

/-- The range of the last body, if there is one. -/
def Choices.lastBody? : Choices → Option Span
  | .none => Option.none
  | .otherwise body _ => some body.span
  | .test _ body _ rest => some (rest.lastBody?.getD body.span)

end Scriptlet
