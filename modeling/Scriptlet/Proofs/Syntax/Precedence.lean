import Scriptlet.Syntax.Grammar
import Scriptlet.Proofs.Syntax.Printer

/-!
How expressions are written down with as few parentheses as possible: each operator offers its
operands places, and an operand stands in parentheses exactly where it is too loose for its place.
-/

namespace Scriptlet

/-- The places in which expressions stand, from the loosest to the tightest. -/
inductive Slot where
  | expression | comparison | compared | sum | product | factor | call
deriving DecidableEq, Repr

/-- How tight what stands in a place has to be. -/
def Slot.rank : Slot → Nat
  | .expression => 0
  | .comparison => 1
  | .compared => 2
  | .sum => 3
  | .product => 4
  | .factor => 5
  | .call => 6

/-- The tightest place for the operations of a level. -/
def Level.slot : Level → Slot
  | .logical => .expression
  | .comparison => .compared
  | .additive => .sum
  | .multiplicative => .product
  | .power => .factor

/-- The place before an operator: operations of its own level may stand there, powers excepted. -/
def Level.leftSlot : Level → Slot
  | .power => .call
  | level => level.slot

/-- The place behind an operator: what stands there is tighter, powers excepted. -/
def Level.rightSlot : Level → Slot
  | .logical => .comparison
  | .comparison => .sum
  | .additive => .product
  | .multiplicative | .power => .factor

/-- The tightest place for an operator with its operand, which is the place of the operand too. -/
def UnaryOperator.slot : UnaryOperator → Slot
  | .negate | .plus => .factor
  | .not => .comparison

/-- The tightest place in which an expression stands without parentheses. -/
def Node.slot : Node → Slot
  | .binary _ operator _ _ => operator.level.slot
  | .unary _ operator _ => operator.slot
  | _ => .call

/-- Parentheses around what is too loose for its place. -/
def Node.placed (node : Node) (slot : Slot) (kinds : List TokenKind) : List TokenKind :=
  if node.slot.rank < slot.rank then .symbol .leftParen :: kinds ++ [.symbol .rightParen] else kinds

mutual

/--
An expression with parentheses around its operands only where they are needed; expressions that
words introduce are put in parentheses wherever they stand.
-/
def Node.shown : Node → List TokenKind
  | .binary _ operator left right =>
    left.placed operator.level.leftSlot left.shown ++
      operator.kind :: right.placed operator.level.rightSlot right.shown
  | .unary _ operator operand => operator.kind :: operand.placed operator.slot operand.shown
  | .list _ items =>
    .symbol .leftBracket :: separated (.symbol .comma) (Node.shownEach items) ++
      [.symbol .rightBracket]
  | .call _ callee arguments =>
    callee.placed .call callee.shown ++
      .symbol .leftParen :: separated (.symbol .comma) (Node.shownEach arguments) ++
      [.symbol .rightParen]
  | node => node.written

/-- Expressions in a row. -/
def Node.shownEach : List Node → List (List TokenKind)
  | [] => []
  | node :: rest => node.shown :: Node.shownEach rest

end

/-- An expression as it is written in some place. -/
def Node.shownIn (slot : Slot) (node : Node) : List TokenKind :=
  node.placed slot node.shown

end Scriptlet
