import Scriptlet.Proofs.Syntax.Unfolding
import Scriptlet.Proofs.Syntax.Reading

/-! Rules never leave more tokens than there were, and every round of a repetition takes one. -/

namespace Scriptlet

/-- A rule leaves at most as many tokens as there were. -/
def Rule.Shrinks {α : Type} (rule : Rule α) : Prop :=
  ∀ tokens result rest, rule tokens = .ok (result, rest) → rest.length ≤ tokens.length

/-- Rules that make the same of alike tokens leave at most as many tokens as there were. -/
theorem Rule.Similar.shrinks {α β : Type} {results : α → β → Prop} {rule : Rule α}
    {rule' : Rule β} (alike : ∀ length, Rule.Similar (· = ·) length results rule rule') :
    rule.Shrinks := by
  -- The relation asks for it, and every list is alike itself.
  intro tokens result rest read
  have same : TokensAlike (· = ·) tokens tokens := List.forall₂_same.mpr fun _ _ => ⟨rfl, rfl⟩
  have both := alike tokens.length tokens tokens same (Nat.le_refl _)
  rw [read] at both
  generalize rule' tokens = parsed at both
  cases both with
  | ok _ _ shorter => exact shorter

namespace Rule

variable {α β : Type}

/-- A change of the result leaves the same tokens. -/
theorem Shrinks.map {rule : Rule α} {told : α → β} (shrinks : rule.Shrinks) :
    Shrinks (do return told (← rule) : Rule β) := by
  intro tokens result rest read
  obtain ⟨inner, left, read, same⟩ := bind_eq_ok.mp read
  cases same
  exact shrinks tokens inner rest read

/-- What only goes on behind a token takes that token. -/
theorem consumes_token? {kind : TokenKind} {next : Option Token → Rule (Option α)}
    (absent : ∀ tokens, next none tokens = .ok (none, tokens))
    (present : ∀ token, (next (some token)).Shrinks) : Consumes (Rule.token? kind >>= next) := by
  -- Without the token there is no result.
  intro tokens result rest read
  obtain ⟨found, left, first, second⟩ := bind_eq_ok.mp read
  cases tokens with
  | nil =>
    cases first
    rw [absent] at second
    cases second
  | cons token tokens =>
    simp only [Rule.token?] at first
    split at first
    · cases first
      exact Nat.lt_succ_of_le (present token _ _ _ second)
    · cases first
      rw [absent] at second
      cases second

/-- An operator and its operand take the operator. -/
theorem consumes_operation {operand : Rule Node} {operator? : TokenKind → Option BinaryOperator}
    (shrinks : operand.Shrinks) : Consumes (Rule.operation operand operator?) := by
  -- Without the operator there is no result.
  intro tokens result rest read
  cases tokens with
  | nil => cases read
  | cons token tokens =>
    simp only [Rule.operation] at read
    cases found : operator? token.kind with
    | none =>
      rw [found] at read
      cases read
    | some operator =>
      rw [found] at read
      exact Nat.lt_succ_of_le (shrinks.map _ _ _ read)

/-- What comes after a comma takes the comma. -/
theorem consumes_afterComma {item : Rule α} (shrinks : item.Shrinks) :
    Consumes (Grammar.afterComma item) :=
  consumes_token? (fun _ => rfl) fun _ => shrinks.map

/-- An identifier is one token fewer. -/
theorem shrinks_identifier (expected : Expectation) : (Rule.identifier expected).Shrinks :=
  Rule.Similar.shrinks fun _ => Rule.Similar.identifier

end Rule

namespace Grammar

/-- The full grammar makes the same of the same tokens. -/
theorem full_same (length : Nat) : Grammar.Similar (· = ·) length full full :=
  full_similar eq_respectsThrough length

/-- Expressions leave at most as many tokens as there were. -/
theorem shrinks_expression : full.expression.Shrinks :=
  Rule.Similar.shrinks fun length => (full_same length).expression

/-- Factors leave at most as many tokens as there were. -/
theorem shrinks_factor : full.factor.Shrinks :=
  Rule.Similar.shrinks fun length => (full_same length).factor

/-- Another branch takes the word before it. -/
theorem consumes_anotherBranch : Rule.Consumes full.anotherBranch :=
  Rule.consumes_token? (fun _ => rfl) fun _ =>
    (Rule.Similar.shrinks fun length => (full_same length).branch).map

/-- One more list of arguments takes the parenthesis before it. -/
theorem consumes_arguments : Rule.Consumes full.arguments :=
  Rule.consumes_token? (fun _ => rfl) fun _ =>
    (Rule.Similar.shrinks fun length => (full_same length).delimited .rightParen .firstArgument
      .nextArgument).map

/-- Another statement takes the newlines before it. -/
theorem consumes_anotherStatement : Rule.Consumes full.anotherStatement := by
  -- Without newlines there is no other statement.
  intro tokens result rest read
  obtain ⟨found, left, first, second⟩ := Rule.bind_eq_ok.mp read
  cases first
  split at second
  · rename_i newlines
    have shrinks : full.statementRule.optional.Shrinks := Rule.Similar.shrinks fun length =>
      (((full_same length).statementRule eq_respectsThrough).mono (Nat.le_succ _)).optional
    exact Nat.lt_of_le_of_lt (shrinks _ _ _ second) (by simpa using newlines)
  · cases second

end Grammar

end Scriptlet
