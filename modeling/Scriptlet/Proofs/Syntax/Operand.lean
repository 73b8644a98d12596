import Scriptlet.Proofs.Syntax.Progress

/-!
How an atom becomes an operand of every level: each level reads it alone as long as the next token
does not go on with it there.
-/

namespace Scriptlet

namespace TokenKind

/-- The kinds that close what is open around them; no construct goes on with one of them. -/
def Closes (kind : TokenKind) : Prop :=
  kind ∈ [.keyword .thenWord, .keyword .toWord, .keyword .endWord, .symbol .rightParen,
    .symbol .rightBracket, .endOfText]

/-- The kinds that end a statement: those that close what is open, and newlines. -/
def Ends (kind : TokenKind) : Prop :=
  kind.Closes ∨ kind = .newline

/-- The kinds that an atom starts with. -/
def StartsAtom : TokenKind → Prop
  | .int _ | .float _ | .text _ | .identifier _ => True
  | .symbol sign => sign ∈ [.leftParen, .leftBracket]
  | .keyword word => word ∈ [.ifWord, .forWord, .whileWord, .funWord]
  | _ => False

end TokenKind

/-- How tight the operators of a level bind. -/
def Level.rank : Level → Nat
  | .logical => 0
  | .comparison => 1
  | .additive => 2
  | .multiplicative => 3
  | .power => 4

/-- The kinds with which no operand of a level goes on: no call, and no operator that is as tight. -/
def TokenKind.Leaves (level : Level) (kind : TokenKind) : Prop :=
  kind ≠ .symbol .leftParen ∧
    ∀ operator, kind.operator? = some operator → operator.level.rank < level.rank

/-- What leaves a level leaves every tighter one. -/
theorem TokenKind.Leaves.tighter {level tight : Level} {kind : TokenKind}
    (leaves : kind.Leaves level) (order : level.rank ≤ tight.rank) : kind.Leaves tight :=
  ⟨leaves.1, fun operator found => Nat.lt_of_lt_of_le (leaves.2 operator found) order⟩

/-- What leaves a level is none of its operators. -/
theorem TokenKind.Leaves.operatorAt? {level : Level} {kind : TokenKind}
    (leaves : kind.Leaves level) : kind.operatorAt? level = none := by
  -- An operator of the level would have to be looser than itself.
  unfold TokenKind.operatorAt?
  cases found : kind.operator? with
  | none => rfl
  | some operator =>
    have looser := leaves.2 operator found
    have other : operator.level ≠ level := by
      rintro rfl
      exact Nat.lt_irrefl _ looser
    simp [other]

/-- What ends a statement leaves every level. -/
theorem TokenKind.Ends.leaves {kind : TokenKind} (ends : kind.Ends) (level : Level) :
    kind.Leaves level := by
  -- Each of these kinds is no operator and no parenthesis that opens.
  have plain : kind ≠ .symbol .leftParen ∧ kind.operator? = none := by
    rcases ends with closes | rfl
    · simp only [TokenKind.Closes, List.mem_cons, List.not_mem_nil, or_false] at closes
      rcases closes with rfl | rfl | rfl | rfl | rfl | rfl <;> exact ⟨by decide, rfl⟩
    · exact ⟨by decide, rfl⟩
  refine ⟨plain.1, fun operator found => ?_⟩
  rw [plain.2] at found
  cases found

namespace Grammar

/-- Without a sign, a factor is a power. -/
theorem factorRule_eq {grammar : Grammar} {tokens : List Token}
    (minus : nextKind tokens ≠ .symbol .minus) (plus : nextKind tokens ≠ .symbol .plus) :
    grammar.factorRule tokens = grammar.power tokens := by
  -- Only the two signs are read otherwise.
  cases tokens with
  | nil => rfl
  | cons token rest =>
    obtain ⟨kind, span⟩ := token
    cases kind with
    | symbol symbol =>
      cases symbol with
      | minus => exact absurd rfl minus
      | plus => exact absurd rfl plus
      | _ => rfl
    | _ => rfl

/-- Without the word for a negation, a comparison is a chain of sums. -/
theorem comparisonRule_eq {grammar : Grammar} {tokens : List Token}
    (other : nextKind tokens ≠ .keyword .notWord) :
    grammar.comparisonRule tokens = grammar.compared.orExpected .comparison tokens := by
  -- Only that word is read otherwise.
  cases tokens with
  | nil => rfl
  | cons token rest =>
    obtain ⟨kind, span⟩ := token
    cases kind with
    | keyword word =>
      cases word with
      | notWord => exact absurd rfl other
      | _ => rfl
    | _ => rfl

/-- Without the word for an assignment, an expression is a chain of comparisons. -/
theorem expressionRule_eq {grammar : Grammar} {tokens : List Token}
    (other : nextKind tokens ≠ .keyword .varWord) :
    grammar.expressionRule tokens = grammar.logical.orExpected .expression tokens := by
  -- Only that word is read otherwise.
  cases tokens with
  | nil => rfl
  | cons token rest =>
    obtain ⟨kind, span⟩ := token
    cases kind with
    | keyword word =>
      cases word with
      | varWord => exact absurd rfl other
      | _ => rfl
    | _ => rfl

/-- The kinds of tokens that raise a signal. -/
def Signals (kind : TokenKind) : Prop :=
  kind ∈ [.keyword .returnWord, .keyword .continueWord, .keyword .breakWord]

/-- Without a word for a signal, a statement is an expression. -/
theorem statementRule_eq {grammar : Grammar} {tokens : List Token}
    (other : ¬ Signals (nextKind tokens)) :
    grammar.statementRule tokens = grammar.expressionRule.orExpected .statement tokens := by
  -- Only those words are read otherwise.
  cases tokens with
  | nil => rfl
  | cons token rest =>
    obtain ⟨kind, span⟩ := token
    cases kind with
    | keyword word =>
      cases word with
      | returnWord | continueWord | breakWord => simp [Signals] at other
      | _ => rfl
    | _ => rfl

/-- Factors leave at most as many tokens as there were. -/
theorem shrinks_factorRule : full.factorRule.Shrinks := by
  rw [← full_factor]
  exact shrinks_factor

/-- Comparisons leave at most as many tokens as there were. -/
theorem shrinks_comparisonRule : full.comparisonRule.Shrinks := by
  rw [← full_comparison]
  exact Rule.Similar.shrinks fun length => (full_same length).comparison

/-- Products leave at most as many tokens as there were. -/
theorem shrinks_multiplicative : full.multiplicative.Shrinks :=
  Rule.Similar.shrinks fun length => Rule.Similar.mono (Nat.le_succ _)
    (.chain eq_respectsThrough _ ((full_same length).factorRule eq_respectsThrough))

/-- Sums leave at most as many tokens as there were. -/
theorem shrinks_additive : full.additive.Shrinks :=
  Rule.Similar.shrinks fun length => Rule.Similar.mono (Nat.le_succ _)
    (.chain eq_respectsThrough _
      (.chain eq_respectsThrough _ ((full_same length).factorRule eq_respectsThrough)))

variable {read : List Token} {node : Node} {next : TokenKind → Prop}

/-- When no operator comes next, no operation is read. -/
theorem operation_absent {operand : Rule Node} {operator? : TokenKind → Option BinaryOperator}
    {tokens : List Token} (absent : operator? (nextKind tokens) = none) :
    Rule.operation operand operator? tokens = .ok (none, tokens) := by
  cases tokens with
  | nil => rfl
  | cons token rest =>
    have absent : operator? token.kind = none := absent
    simp only [Rule.operation, absent]

/-- When an operator comes next, its operand is read behind it. -/
theorem operation_present {operand : Rule Node} {operator? : TokenKind → Option BinaryOperator}
    {token : Token} {operator : BinaryOperator} (present : operator? token.kind = some operator)
    (rest : List Token) :
    Rule.operation operand operator? (token :: rest) =
      (do return some (operator, ← operand) : Rule (Option (BinaryOperator × Node))) rest := by
  simp only [Rule.operation, present]

/-- Before what is no operator of a level, no operation of the level is read. -/
theorem reads_noOperation {operand : Rule Node} {level : Level}
    (leaves : ∀ kind, next kind → kind.Leaves level) :
    (Rule.operation operand (TokenKind.operatorAt? level)).Reads [] none next :=
  fun _ suitable => operation_absent (leaves _ suitable).operatorAt?

/-- An operand before what is no operator of its level is all that is read at that level. -/
theorem reads_alone {first operand : Rule Node} {level : Level} (shrinks : operand.Shrinks)
    (operands : first.Reads read node next) (leaves : ∀ kind, next kind → kind.Leaves level) :
    Rule.Reads (do
      let first ← first
      let operations ← Rule.many (Rule.operation operand (TokenKind.operatorAt? level))
      return operations.foldl (fun left (operator, right) => .joined operator left right) first)
      read node next := by
  -- No operation follows the first operand.
  have repeated := Rule.Reads.many_nil (Rule.consumes_operation shrinks) rfl
    (reads_noOperation leaves)
  exact operands.bind_nil repeated.map

/-- Two operands around an operator of a level are read at that level. -/
theorem reads_operation {first operand : Rule Node} {level : Level} {left right : List Token}
    {leftNode rightNode : Node} {leftNext : TokenKind → Prop} {sign : Token}
    {operator : BinaryOperator} (shrinks : operand.Shrinks)
    (lefts : first.Reads left leftNode leftNext) (suitable : leftNext sign.kind)
    (found : sign.kind.operatorAt? level = some operator)
    (rights : operand.Reads right rightNode next)
    (leaves : ∀ kind, next kind → kind.Leaves level) :
    Rule.Reads (do
      let first ← first
      let operations ← Rule.many (Rule.operation operand (TokenKind.operatorAt? level))
      return operations.foldl (fun left (operator, right) => .joined operator left right) first)
      (left ++ sign :: right) (.joined operator leftNode rightNode) next := by
  -- One operation follows the first operand, and no other.
  have one : (Rule.operation operand (TokenKind.operatorAt? level)).Reads (sign :: right)
      (some (operator, rightNode)) next := by
    intro rest suitable
    rw [List.cons_append, operation_present found]
    exact rights.map rest suitable
  have none := Rule.Reads.many_nil (Rule.consumes_operation shrinks) rfl
    (reads_noOperation leaves)
  have repeated := Rule.Reads.many_cons (Rule.consumes_operation shrinks) rfl one none
    fun _ suitable => suitable
  rw [List.append_nil] at repeated
  exact lefts.bind repeated.map fun _ _ => suitable

/-- An atom before what opens no list of arguments is all of a call. -/
theorem reads_call (atom : full.atom.Reads read node next)
    (leaves : ∀ kind, next kind → kind ≠ .symbol .leftParen) :
    full.call.Reads read node next := by
  -- No list of arguments follows.
  have absent : (Rule.token? (.symbol .leftParen)).Reads [] none next :=
    Rule.Reads.noToken leaves
  have none : full.arguments.Reads [] none next := absent.bind_nil (Rule.Reads.pure _)
  have repeated := Rule.Reads.many_nil consumes_arguments rfl none
  exact atom.bind_nil repeated.map

/-- A call before what leaves its level is all of a power. -/
theorem reads_power (call : full.call.Reads read node next)
    (leaves : ∀ kind, next kind → kind.Leaves .power) : full.power.Reads read node next :=
  reads_alone shrinks_factor call leaves

/-- A power that starts with no sign is a factor. -/
theorem reads_factor (start : ∀ rest, nextKind (read ++ rest) ≠ .symbol .minus ∧
      nextKind (read ++ rest) ≠ .symbol .plus)
    (power : full.power.Reads read node next) : full.factorRule.Reads read node next := by
  intro rest suitable
  rw [factorRule_eq (start rest).1 (start rest).2, power rest suitable]

/-- A factor before what leaves its level is all of a product. -/
theorem reads_multiplicative (factor : full.factorRule.Reads read node next)
    (leaves : ∀ kind, next kind → kind.Leaves .multiplicative) :
    full.multiplicative.Reads read node next :=
  reads_alone shrinks_factorRule factor leaves

/-- A product before what leaves its level is all of a sum. -/
theorem reads_additive (product : full.multiplicative.Reads read node next)
    (leaves : ∀ kind, next kind → kind.Leaves .additive) : full.additive.Reads read node next :=
  reads_alone shrinks_multiplicative product leaves

/-- A sum before what leaves its level is all of a comparison. -/
theorem reads_compared (sum : full.additive.Reads read node next)
    (leaves : ∀ kind, next kind → kind.Leaves .comparison) :
    full.compared.Reads read node next :=
  reads_alone shrinks_additive sum leaves

/-- A chain of sums that starts with no word for a negation is a comparison. -/
theorem reads_comparison (start : ∀ rest, nextKind (read ++ rest) ≠ .keyword .notWord)
    (compared : full.compared.Reads read node next) :
    full.comparisonRule.Reads read node next := by
  intro rest suitable
  rw [comparisonRule_eq (start rest), compared.orExpected rest suitable]

/-- A comparison before what leaves its level is all of a chain of comparisons. -/
theorem reads_logical (comparison : full.comparisonRule.Reads read node next)
    (leaves : ∀ kind, next kind → kind.Leaves .logical) : full.logical.Reads read node next :=
  reads_alone shrinks_comparisonRule comparison leaves

/-- A chain of comparisons that starts with no word for an assignment is an expression. -/
theorem reads_expression (start : ∀ rest, nextKind (read ++ rest) ≠ .keyword .varWord)
    (logical : full.logical.Reads read node next) : full.expression.Reads read node next := by
  intro rest suitable
  rw [full_expression, expressionRule_eq (start rest), logical.orExpected rest suitable]

/-- An expression that starts with no word for a signal is a statement. -/
theorem reads_statement (start : ∀ rest, ¬ Signals (nextKind (read ++ rest)))
    (expression : full.expression.Reads read node next) :
    full.statement.Reads read node next := by
  intro rest suitable
  rw [full_expression] at expression
  rw [full_statement, statementRule_eq (start rest), expression.orExpected rest suitable]

end Grammar

end Scriptlet
