import Scriptlet.Token
import Scriptlet.Syntax.Error
import Scriptlet.Syntax.Node

/-! Grammar rules: readers of a prefix of the tokens that say what they expected when they fail. -/

namespace Scriptlet

/-- A failed rule: what it expected, and the tokens that it had not consumed. -/
structure Failure where
  expected : Expectation
  rest : List Token

/-- What a rule makes of some tokens: a result and the tokens after it, or a failure. -/
abbrev Parsed (α : Type) := Except Failure (α × List Token)

/-- A rule reads a prefix of the tokens. -/
def Rule (α : Type) := List Token → Parsed α

namespace Rule

/-- The rule that reads nothing. -/
protected def pure {α : Type} (result : α) : Rule α := fun tokens => .ok (result, tokens)

/-- One rule, then another on the tokens that are left. -/
protected def bind {α β : Type} (first : Rule α) (next : α → Rule β) : Rule β := fun tokens =>
  match first tokens with
  | .ok (result, rest) => next result rest
  | .error failure => .error failure

instance : Monad Rule where
  pure := Rule.pure
  bind := Rule.bind

/-- The rule that reads nothing leaves every token. -/
@[simp] theorem pure_apply {α : Type} (result : α) (tokens : List Token) :
    (pure result : Rule α) tokens = .ok (result, tokens) := rfl

/-- Two rules in a row read one after the other. -/
theorem bind_apply {α β : Type} (first : Rule α) (next : α → Rule β) (tokens : List Token) :
    (first >>= next) tokens =
      match first tokens with
      | .ok (result, rest) => next result rest
      | .error failure => .error failure := rfl

/-- A rule that only passes on what another one reads is that rule. -/
theorem id_map' {α : Type} (rule : Rule α) : id <$> rule = rule := by
  -- Neither a result nor a failure changes.
  funext tokens
  change Rule.bind rule (fun result => Rule.pure (id result)) tokens = rule tokens
  unfold Rule.bind
  cases rule tokens <;> rfl

/-- Of three rules in a row, the first failure is the failure of both groupings. -/
theorem bind_assoc' {α β γ : Type} (rule : Rule α) (second : α → Rule β) (third : β → Rule γ) :
    rule >>= second >>= third = rule >>= fun result => second result >>= third := by
  -- Without a failure both groupings read the same tokens in turn.
  funext tokens
  simp only [bind_apply]
  cases rule tokens <;> rfl

instance : LawfulMonad Rule :=
  LawfulMonad.mk' Rule id_map' (fun _ _ => rfl) bind_assoc'

/-- The rule that fails where it stands. -/
def fail {α : Type} (expected : Expectation) : Rule α := fun tokens =>
  .error { expected, rest := tokens }

/--
A rule that fails on its very first token is better described by what could have started it; a
failure further on is kept.
-/
def orExpected {α : Type} (rule : Rule α) (expected : Expectation) : Rule α := fun tokens =>
  match rule tokens with
  | .ok parsed => .ok parsed
  | .error failure =>
    if failure.rest.length < tokens.length then .error failure
    else .error { expected, rest := tokens }

/-- A rule that may be absent: when it fails on its very first token, it has read nothing. -/
def optional {α : Type} (rule : Rule α) : Rule (Option α) := fun tokens =>
  match rule tokens with
  | .ok (result, rest) => .ok (some result, rest)
  | .error failure =>
    if failure.rest.length < tokens.length then .error failure else .ok (none, tokens)

/-- One token of the given kind. -/
def token (kind : TokenKind) (expected : Expectation) : Rule Token
  | [] => fail expected []
  | token :: rest => if token.kind = kind then .ok (token, rest) else fail expected (token :: rest)

/-- One reserved word. -/
def keyword (word : Keyword) (expected : Expectation) : Rule Token :=
  token (.keyword word) expected

/-- One symbol. -/
def symbol (symbol : Symbol) (expected : Expectation) : Rule Token :=
  token (.symbol symbol) expected

/-- One identifier, with its range. -/
def identifier (expected : Expectation) : Rule (String × Span)
  | ⟨.identifier name, span⟩ :: rest => .ok ((name, span), rest)
  | tokens => fail expected tokens

/-- The token of the given kind if it comes next, and nothing otherwise. -/
def token? (kind : TokenKind) : Rule (Option Token)
  | [] => .ok (none, [])
  | token :: rest => if token.kind = kind then .ok (some token, rest) else .ok (none, token :: rest)

/-- The tokens after the newlines that come next. -/
def afterNewlines : List Token → List Token
  | [] => []
  | token :: rest => if token.kind = .newline then afterNewlines rest else token :: rest

/-- Reads newlines, and says whether there were any. -/
def newlines : Rule Bool := fun tokens =>
  .ok ((afterNewlines tokens).length < tokens.length, afterNewlines tokens)

/-- What a rule reads again and again until it reads nothing, at most so many times. -/
def manyUpTo {α : Type} (item : Rule (Option α)) : Nat → Rule (List α)
  | 0 => pure []
  | rounds + 1 => do
    match ← item with
    | none => return []
    | some result => return result :: (← manyUpTo item rounds)

/-- What a rule reads again and again until it reads nothing; each time it takes a token. -/
def many {α : Type} (item : Rule (Option α)) : Rule (List α) := fun tokens =>
  manyUpTo item tokens.length tokens

/-- An operator and the operand after it, if an operator comes next. -/
def operation (operand : Rule Node) (operator? : TokenKind → Option BinaryOperator) :
    Rule (Option (BinaryOperator × Node))
  | [] => .ok (none, [])
  | token :: rest =>
    match operator? token.kind with
    | none => .ok (none, token :: rest)
    | some operator => (do return some (operator, ← operand) : Rule _) rest

/-- Operands between operators, grouped from the left. -/
def chain (operand : Rule Node) (operator? : TokenKind → Option BinaryOperator) : Rule Node := do
  let first ← operand
  let operations ← many (operation operand operator?)
  return operations.foldl (fun left (operator, right) => .joined operator left right) first

end Rule

end Scriptlet
