import Scriptlet.Proofs.Syntax.Stopping

/-!
The levels of expressions, climbed in both directions: what is read at one level is an expression if
nothing goes on with it, and an atom is an operand of every level.
-/

namespace Scriptlet

/-- The kinds with which no operand of an operator goes on, unless the operator is tighter. -/
def TokenKind.Follows (level : Level) (kind : TokenKind) : Prop :=
  kind ≠ .symbol .leftParen ∧
    ∀ operator, kind.operator? = some operator → operator.level.rank ≤ level.rank

/-- What may follow an operand of one level leaves every tighter level. -/
theorem TokenKind.Follows.leaves {level tight : Level} {kind : TokenKind}
    (follows : kind.Follows level) (order : level.rank < tight.rank) : kind.Leaves tight :=
  ⟨follows.1, fun operator found => Nat.lt_of_le_of_lt (follows.2 operator found) order⟩

/-- What leaves a level may follow an operand of it. -/
theorem TokenKind.Leaves.follows {level : Level} {kind : TokenKind} (leaves : kind.Leaves level) :
    kind.Follows level :=
  ⟨leaves.1, fun operator found => Nat.le_of_lt (leaves.2 operator found)⟩

namespace Grammar

/-- What the operators of a level stand between, as far as the first operand is concerned. -/
def firstOperand : Level → Rule Node
  | .logical => full.comparisonRule
  | .comparison => full.additive
  | .additive => full.multiplicative
  | .multiplicative => full.factorRule
  | .power => full.call

/-- What stands behind the operators of a level. -/
def laterOperand : Level → Rule Node
  | .logical => full.comparisonRule
  | .comparison => full.additive
  | .additive => full.multiplicative
  | .multiplicative => full.factorRule
  | .power => full.factor

/-- Operands between the operators of a level. -/
def operationsAt (level : Level) : Rule Node := do
  let first ← firstOperand level
  let operations ← Rule.many (Rule.operation (laterOperand level) (TokenKind.operatorAt? level))
  return operations.foldl (fun left (operator, right) => .joined operator left right) first

/-- The operands behind the operators of a level leave at most as many tokens as there were. -/
theorem shrinks_laterOperand (level : Level) : (laterOperand level).Shrinks := by
  cases level with
  | logical => exact shrinks_comparisonRule
  | comparison => exact shrinks_additive
  | additive => exact shrinks_multiplicative
  | multiplicative => exact shrinks_factorRule
  | power => exact shrinks_factor

/-- A rule reads an atom here: it starts like one, and before suitable tokens it is one. -/
structure Operand (next : TokenKind → Prop) (read : List Token) (node : Node) : Prop where
  atom : full.atom.Reads read node next
  starts : ∀ rest, (nextKind (read ++ rest)).StartsAtom

variable {read : List Token} {node : Node} {next : TokenKind → Prop}

/-- An atom starts with no other kind of token. -/
theorem Operand.ne {kind : TokenKind} (operand : Operand next read node)
    (other : ¬ kind.StartsAtom) (rest : List Token) : nextKind (read ++ rest) ≠ kind := by
  intro same
  exact other (same ▸ operand.starts rest)

/-- What is an atom before more tokens is one before fewer. -/
theorem Operand.mono {next' : TokenKind → Prop} (operand : Operand next read node)
    (fewer : ∀ kind, next' kind → next kind) : Operand next' read node where
  atom := operand.atom.mono fewer
  starts := operand.starts

section Downwards

variable (operand : Operand next read node)

include operand

/-- An atom is a call, unless arguments follow. -/
theorem Operand.call (follows : ∀ kind, next kind → kind ≠ .symbol .leftParen) :
    full.call.Reads read node next :=
  reads_call operand.atom follows

/-- An atom is a factor, unless a call or a power goes on with it. -/
theorem Operand.factor (follows : ∀ kind, next kind → kind.Follows .multiplicative) :
    full.factorRule.Reads read node next := by
  have call := operand.call fun kind suitable => (follows kind suitable).1
  have power := reads_power call fun kind suitable => (follows kind suitable).leaves (by decide)
  refine reads_factor (fun rest => ⟨?_, ?_⟩) power
  · exact operand.ne (by simp [TokenKind.StartsAtom]) rest
  · exact operand.ne (by simp [TokenKind.StartsAtom]) rest

/-- An atom is a product, unless a tighter operator or a multiplication goes on with it. -/
theorem Operand.product (follows : ∀ kind, next kind → kind.Follows .additive) :
    full.multiplicative.Reads read node next := by
  have leaves : ∀ kind, next kind → kind.Leaves .multiplicative :=
    fun kind suitable => (follows kind suitable).leaves (by decide)
  exact reads_multiplicative (operand.factor fun kind suitable => (leaves kind suitable).follows)
    leaves

/-- An atom is a sum, unless a tighter operator or an addition goes on with it. -/
theorem Operand.sum (follows : ∀ kind, next kind → kind.Follows .comparison) :
    full.additive.Reads read node next := by
  have leaves : ∀ kind, next kind → kind.Leaves .additive :=
    fun kind suitable => (follows kind suitable).leaves (by decide)
  exact reads_additive (operand.product fun kind suitable => (leaves kind suitable).follows) leaves

/-- An atom is a comparison, unless a tighter operator or a comparison goes on with it. -/
theorem Operand.comparison (follows : ∀ kind, next kind → kind.Follows .logical) :
    full.comparisonRule.Reads read node next := by
  have leaves : ∀ kind, next kind → kind.Leaves .comparison :=
    fun kind suitable => (follows kind suitable).leaves (by decide)
  have sum := operand.sum fun kind suitable => (leaves kind suitable).follows
  exact reads_comparison (operand.ne (by simp [TokenKind.StartsAtom])) (reads_compared sum leaves)

/-- An atom is an expression, unless an operator goes on with it. -/
theorem Operand.expression (leaves : ∀ kind, next kind → kind.Leaves .logical) :
    full.expression.Reads read node next := by
  have comparison := operand.comparison fun kind suitable => (leaves kind suitable).follows
  exact reads_expression (operand.ne (by simp [TokenKind.StartsAtom]))
    (reads_logical comparison leaves)

/-- An atom is the first operand of a level, unless something tighter goes on with it. -/
theorem Operand.first (level : Level) (follows : ∀ kind, next kind → kind.Follows level) :
    (firstOperand level).Reads read node next := by
  cases level with
  | logical => exact operand.comparison follows
  | comparison => exact operand.sum follows
  | additive => exact operand.product follows
  | multiplicative => exact operand.factor follows
  | power => exact operand.call fun kind suitable => (follows kind suitable).1

/-- An atom is a later operand of a level, unless an operator goes on with it. -/
theorem Operand.later (level : Level) (leaves : ∀ kind, next kind → kind.Leaves .logical) :
    (laterOperand level).Reads read node next := by
  have follows : ∀ level kind, next kind → kind.Follows level := fun level kind suitable =>
    ((leaves kind suitable).tighter (Nat.zero_le _)).follows
  cases level with
  | logical => exact operand.comparison (follows _)
  | comparison => exact operand.sum (follows _)
  | additive => exact operand.product (follows _)
  | multiplicative => exact operand.factor (follows _)
  | power =>
    have factor := operand.factor (follows _)
    rwa [← full_factor] at factor

end Downwards

section Upwards

variable (leaves : ∀ kind, next kind → kind.Leaves .logical)

include leaves

/-- A comparison that nothing goes on with is an expression. -/
theorem expression_of_comparison (noVar : ∀ rest, nextKind (read ++ rest) ≠ .keyword .varWord)
    (comparison : full.comparisonRule.Reads read node next) :
    full.expression.Reads read node next :=
  reads_expression noVar (reads_logical comparison leaves)

/-- A sum that nothing goes on with is an expression. -/
theorem expression_of_sum (noVar : ∀ rest, nextKind (read ++ rest) ≠ .keyword .varWord)
    (noNot : ∀ rest, nextKind (read ++ rest) ≠ .keyword .notWord)
    (sum : full.additive.Reads read node next) : full.expression.Reads read node next := by
  have compared := reads_compared sum fun kind suitable =>
    (leaves kind suitable).tighter (by decide)
  exact expression_of_comparison leaves noVar (reads_comparison noNot compared)

/-- A factor that nothing goes on with is an expression. -/
theorem expression_of_factor (noVar : ∀ rest, nextKind (read ++ rest) ≠ .keyword .varWord)
    (noNot : ∀ rest, nextKind (read ++ rest) ≠ .keyword .notWord)
    (factor : full.factorRule.Reads read node next) : full.expression.Reads read node next := by
  have product := reads_multiplicative factor fun kind suitable =>
    (leaves kind suitable).tighter (by decide)
  have sum := reads_additive product fun kind suitable => (leaves kind suitable).tighter (by decide)
  exact expression_of_sum leaves noVar noNot sum

/-- Operations that nothing goes on with are an expression when they start with an atom. -/
theorem expression_of_operations (level : Level)
    (starts : ∀ rest, (nextKind (read ++ rest)).StartsAtom)
    (operations : (operationsAt level).Reads read node next) :
    full.expression.Reads read node next := by
  have start : ∀ kind : TokenKind, ¬ kind.StartsAtom →
      ∀ rest, nextKind (read ++ rest) ≠ kind := by
    intro kind other rest same
    exact other (same ▸ starts rest)
  have noVar := start (.keyword .varWord) (by simp [TokenKind.StartsAtom])
  have noNot := start (.keyword .notWord) (by simp [TokenKind.StartsAtom])
  have noMinus := start (.symbol .minus) (by simp [TokenKind.StartsAtom])
  have noPlus := start (.symbol .plus) (by simp [TokenKind.StartsAtom])
  cases level with
  | logical => exact reads_expression noVar operations
  | comparison =>
    exact expression_of_comparison leaves noVar (reads_comparison noNot operations)
  | additive => exact expression_of_sum leaves noVar noNot operations
  | multiplicative =>
    have sum := reads_additive operations fun kind suitable =>
      (leaves kind suitable).tighter (by decide)
    exact expression_of_sum leaves noVar noNot sum
  | power =>
    exact expression_of_factor leaves noVar noNot
      (reads_factor (fun rest => ⟨noMinus rest, noPlus rest⟩) operations)

end Upwards

end Grammar

end Scriptlet
