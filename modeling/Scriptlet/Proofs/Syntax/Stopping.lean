import Scriptlet.Proofs.Syntax.Operand

/-!
Where expressions and statements stop: no rule goes on with some tokens, and no rule starts with
them either, so that what may be left out is left out before them.
-/

namespace Scriptlet

namespace TokenKind

instance (kind : TokenKind) : Decidable kind.Closes :=
  inferInstanceAs (Decidable (kind ∈ _))

instance (kind : TokenKind) : Decidable kind.Ends :=
  inferInstanceAs (Decidable (_ ∨ _))

/-- The words that close what is open. -/
@[simp] theorem closes_keyword {word : Keyword} :
    Closes (.keyword word) ↔ word = .thenWord ∨ word = .toWord ∨ word = .endWord := by
  simp [Closes]

/-- The symbols that close what is open. -/
@[simp] theorem closes_symbol {sign : Symbol} :
    Closes (.symbol sign) ↔ sign = .rightParen ∨ sign = .rightBracket := by
  simp [Closes]

/-- The end of the text closes everything. -/
@[simp] theorem closes_endOfText : Closes .endOfText := by
  simp [Closes]

/-- A newline closes nothing. -/
@[simp] theorem not_closes_newline : ¬ Closes .newline := by
  simp [Closes]

/-- What closes something is no newline. -/
theorem Closes.ne_newline {kind : TokenKind} (closes : kind.Closes) : kind ≠ .newline := by
  rintro rfl
  exact not_closes_newline closes

/-- The text may end wherever a statement may. -/
theorem ends_endOfText : Ends .endOfText := .inl closes_endOfText

/-- What ends a statement is none of the other kinds. -/
theorem Ends.ne {kind other : TokenKind} (ends : kind.Ends)
    (different : ¬ other.Ends := by decide) : kind ≠ other := by
  rintro rfl
  exact different ends

/-- The kinds that an expression starts with. -/
def StartsExpression (kind : TokenKind) : Prop :=
  kind.StartsAtom ∨
    kind ∈ [.symbol .minus, .symbol .plus, .keyword .notWord, .keyword .varWord]

/-- The kinds with which an expression neither starts nor goes on. -/
def Stops (kind : TokenKind) : Prop :=
  kind.Leaves .logical ∧ ¬ kind.StartsExpression

/-- An expression neither starts nor goes on with what ends a statement. -/
theorem Ends.stops {kind : TokenKind} (ends : kind.Ends) : kind.Stops := by
  refine ⟨ends.leaves .logical, ?_⟩
  rcases ends with closes | rfl
  · simp only [Closes, List.mem_cons, List.not_mem_nil, or_false] at closes
    rcases closes with rfl | rfl | rfl | rfl | rfl | rfl <;>
      simp [StartsExpression, StartsAtom]
  · simp [StartsExpression, StartsAtom]

/-- What is no operator and opens no list of arguments leaves every level. -/
theorem leaves_of_none {kind : TokenKind} (noParen : kind ≠ .symbol .leftParen)
    (noOperator : kind.operator? = none) (level : Level) : kind.Leaves level := by
  refine ⟨noParen, fun operator found => ?_⟩
  rw [noOperator] at found
  cases found

end TokenKind

/-- The kinds of tokens that may follow a body: a block is closed, and one statement is ended. -/
def BodyForm.Final : BodyForm → TokenKind → Prop
  | .inline => TokenKind.Ends
  | .block => TokenKind.Closes

/-- A body may be the last of a text, as far as its form is concerned. -/
theorem BodyForm.final_endOfText (form : BodyForm) : form.Final .endOfText := by
  cases form with
  | inline => exact TokenKind.ends_endOfText
  | block => exact TokenKind.closes_endOfText

/-- What may follow a body ends a statement. -/
theorem BodyForm.Final.ends {form : BodyForm} {kind : TokenKind} (final : form.Final kind) :
    kind.Ends := by
  cases form with
  | inline => exact final
  | block => exact .inl final

namespace Grammar

/-- Nothing but what starts an atom is read as one. -/
theorem atom_eq_fail {grammar : Grammar} {tokens : List Token}
    (other : ¬ (nextKind tokens).StartsAtom) :
    grammar.atom tokens = Rule.fail .atom tokens := by
  cases tokens with
  | nil => rfl
  | cons token rest =>
    obtain ⟨kind, span⟩ := token
    cases kind with
    | symbol sign => cases sign <;> first | rfl | simp [TokenKind.StartsAtom] at other
    | keyword word => cases word <;> first | rfl | simp [TokenKind.StartsAtom] at other
    | int _ | float _ | text _ | identifier _ => exact absurd trivial other
    | _ => rfl

/-- No atom is read where none starts. -/
theorem fails_atom : full.atom.Fails [] .atom fun kind => ¬ kind.StartsAtom :=
  fun _ other => atom_eq_fail other

/-- No factor is read where no expression starts. -/
theorem fails_factorRule : full.factorRule.Fails [] .atom fun kind => ¬ kind.StartsExpression := by
  intro rest other
  have power : full.power.Fails [] .atom fun kind => ¬ kind.StartsAtom := fails_atom.bind.bind
  rw [List.nil_append, factorRule_eq]
  · exact power rest fun starts => other (.inl starts)
  · intro same
    exact other (.inr (by simp [same]))
  · intro same
    exact other (.inr (by simp [same]))

/-- No comparison is read where no expression starts. -/
theorem fails_comparisonRule :
    full.comparisonRule.Fails [] .comparison fun kind => ¬ kind.StartsExpression := by
  intro rest other
  have compared : full.compared.Fails [] .atom fun kind => ¬ kind.StartsExpression :=
    fails_factorRule.bind.bind.bind
  rw [List.nil_append, comparisonRule_eq]
  · exact compared.orExpected_nil rest other
  · intro same
    exact other (.inr (by simp [same]))

/-- No expression is read where none starts. -/
theorem fails_expression :
    full.expression.Fails [] .expression fun kind => ¬ kind.StartsExpression := by
  intro rest other
  have logical : full.logical.Fails [] .comparison fun kind => ¬ kind.StartsExpression :=
    fails_comparisonRule.bind
  rw [full_expression, List.nil_append, expressionRule_eq]
  · exact logical.orExpected_nil rest other
  · intro same
    exact other (.inr (by simp [same]))

/-- No statement is read where none starts. -/
theorem fails_statement : full.statement.Fails [] .statement
    fun kind => ¬ kind.StartsExpression ∧ ¬ Signals kind := by
  intro rest other
  have expression := fails_expression
  rw [full_expression] at expression
  rw [full_statement, List.nil_append, statementRule_eq other.2]
  exact expression.orExpected_nil rest other.1

/-- No statement starts with what ends one. -/
theorem fails_statement_of_ends : full.statement.Fails [] .statement TokenKind.Ends := by
  refine fails_statement.mono fun kind ends => ⟨ends.stops.2, fun signals => ?_⟩
  simp only [Signals, List.mem_cons, List.not_mem_nil, or_false] at signals
  rcases signals with rfl | rfl | rfl <;> exact absurd ends (by decide)

/-- Without a newline, no other statement is looked for. -/
theorem reads_noStatement : full.anotherStatement.Reads [] none (· ≠ .newline) :=
  Rule.Reads.noNewlines.bind_nil (Rule.Reads.pure none)

/-- Before what ends a statement, nothing comes after a comma. -/
theorem reads_noComma {α : Type} {item : Rule α} :
    (afterComma item).Reads [] none TokenKind.Ends :=
  (Rule.Reads.noToken fun _ ends => ends.ne).bind_nil (Rule.Reads.pure _)

end Grammar

/-- Statements that may stand before the end of the text are a program there. -/
theorem parse_eq_of_reads {read : List Token} {program : Node} {next : TokenKind → Prop}
    (reads : Grammar.full.statements.Reads read program next) (suitable : next .endOfText)
    (stop : Span) : parse (read ++ [⟨.endOfText, stop⟩]) = .ok program := by
  have parsed : parseProgram (read ++ [⟨.endOfText, stop⟩]) = .ok (program, []) := by
    rw [parseProgram_eq, Rule.bind_apply, reads [⟨.endOfText, stop⟩] suitable]
    rfl
  simp only [parse, parsed]

end Scriptlet
