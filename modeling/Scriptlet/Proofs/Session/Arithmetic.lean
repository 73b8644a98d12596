import Scriptlet.Proofs.Eval.Exact
import Scriptlet.Proofs.Eval.Provenance
import Scriptlet.Proofs.Session.Joined
import Scriptlet.Proofs.Syntax.Grouping
import Scriptlet.Proofs.Token.Spelling

/-!
Integer arithmetic from the text of a program to its value: an expression that is written down is
read as that expression, and yields its exact value while everything in it fits.
-/

namespace Scriptlet

namespace Node

variable {node result : Node}

/-- Integer expressions are expressions. -/
theorem IsArithmetic.isExpression (arithmetic : node.IsArithmetic) : node.IsExpression := by
  induction arithmetic with
  | int unsigned => exact .int
  | unary inner ih => exact .unary ih
  | binary whole lefts rights ihLeft ihRight => exact .binary ihLeft ihRight

/-- What is built like an integer expression is one. -/
theorem IsArithmetic.of_alike (arithmetic : node.IsArithmetic) (alike : result.Alike node) :
    result.IsArithmetic := by
  induction arithmetic generalizing result with
  | int unsigned =>
    cases alike with
    | int ranges => exact .int unsigned
  | unary inner ih =>
    cases alike with
    | unary ranges alike => exact .unary (ih alike)
  | binary whole lefts rights ihLeft ihRight =>
    cases alike with
    | binary ranges alikeLeft alikeRight =>
      exact .binary whole (ihLeft alikeLeft) (ihRight alikeRight)

/-- Exact values do not depend on ranges. -/
theorem exactValue?_of_alike (alike : result.Alike node) :
    result.exactValue? = node.exactValue? := by
  -- The induction follows the operands.
  induction node using exactValue?.induct generalizing result with
  | case1 span value =>
    cases alike with
    | int ranges => rfl
  | case2 span operator operand ih =>
    cases alike with
    | unary ranges alike => rw [exactValue?, exactValue?, ih alike]
  | case3 span operator left right ihLeft ihRight =>
    cases alike with
    | binary ranges alikeLeft alikeRight =>
      rw [exactValue?, exactValue?, ihLeft alikeLeft, ihRight alikeRight]
  | case4 node notInt notUnary notBinary =>
    cases alike with
    | int ranges => exact absurd rfl (notInt _ _)
    | unary ranges alike => exact absurd rfl (notUnary _ _ _)
    | binary ranges alikeLeft alikeRight => exact absurd rfl (notBinary _ _ _ _)
    | _ => rfl

/-- The operations of what is built like an integer expression are built like those of it. -/
theorem IsArithmetic.operations_alike (arithmetic : node.IsArithmetic)
    (alike : result.Alike node) :
    List.Forall₂ Node.Alike result.operations node.operations := by
  induction arithmetic generalizing result with
  | int unsigned =>
    cases alike with
    | int ranges => exact .cons (.int ranges) .nil
  | unary inner ih =>
    have whole := alike
    cases alike with
    | unary ranges alike => exact List.rel_append (ih alike) (.cons whole .nil)
  | binary _ lefts rights ihLeft ihRight =>
    have whole := alike
    cases alike with
    | binary ranges alikeLeft alikeRight =>
      have parts := List.rel_append (ihLeft alikeLeft) (ihRight alikeRight)
      exact List.rel_append parts (.cons whole .nil)

/-- Operations that are built alike have values that fit when those of the others do. -/
theorem fits_of_alike {parts parts' : List Node} (alike : List.Forall₂ Node.Alike parts parts')
    (fits : ∀ part ∈ parts', part.Fits) : ∀ part ∈ parts, part.Fits := by
  induction alike with
  | nil => exact fits
  | cons one others ih =>
    rw [List.forall_mem_cons] at fits ⊢
    refine ⟨?_, ih fits.2⟩
    unfold Fits
    rw [exactValue?_of_alike one]
    exact fits.1

/-- An operation stands at the place where the others have one that is built like it. -/
theorem getElem?_of_alike {parts parts' : List Node} {place : Nat} {part' : Node}
    (alike : List.Forall₂ Node.Alike parts parts') (found : parts'[place]? = some part') :
    ∃ part, parts[place]? = some part ∧ part.Alike part' := by
  obtain ⟨inside, rfl⟩ := List.getElem?_eq_some_iff.mp found
  have inside' : place < parts.length := alike.length_eq ▸ inside
  exact ⟨_, List.getElem?_eq_getElem inside', alike.get inside' inside⟩

/-- Every operator before an operand is spelled. -/
theorem spelledAs_unary (operator : UnaryOperator) :
    ∃ chars, operator.kind.SpelledAs chars := by
  cases operator with
  | negate => exact ⟨_, .symbol .minus⟩
  | plus => exact ⟨_, .symbol .plus⟩
  | not => exact ⟨_, .keyword .notWord⟩

/-- Every operator between operands is spelled. -/
theorem spelledAs_binary (operator : BinaryOperator) :
    ∃ chars, operator.kind.SpelledAs chars := by
  cases operator with
  | and => exact ⟨_, .keyword .andWord⟩
  | or => exact ⟨_, .keyword .orWord⟩
  | _ => exact ⟨_, .symbol _⟩

/-- Parentheses are spelled around an operand whose tokens are. -/
theorem spelledAs_placed {slot : Slot} {kinds : List TokenKind}
    (each : ∀ kind ∈ kinds, ∃ chars, kind.SpelledAs chars) :
    ∀ kind ∈ node.placed slot kinds, ∃ chars, kind.SpelledAs chars := by
  unfold placed
  split
  · rw [List.cons_append, List.forall_mem_cons, List.forall_mem_append, List.forall_mem_singleton]
    exact ⟨⟨_, .symbol .leftParen⟩, each, ⟨_, .symbol .rightParen⟩⟩
  · exact each

/-- Every token of an integer expression is spelled. -/
theorem IsArithmetic.spelledAs (arithmetic : node.IsArithmetic) :
    ∀ kind ∈ node.shown, ∃ chars, kind.SpelledAs chars := by
  induction arithmetic with
  | @int span value unsigned =>
    show ∀ kind ∈ [TokenKind.int value], ∃ chars, kind.SpelledAs chars
    rw [List.forall_mem_singleton]
    exact ⟨_, .int unsigned⟩
  | unary inner ih =>
    rw [shown, List.forall_mem_cons]
    exact ⟨spelledAs_unary _, spelledAs_placed ih⟩
  | binary whole lefts rights ihLeft ihRight =>
    rw [shown, List.forall_mem_append, List.forall_mem_cons]
    exact ⟨spelledAs_placed ihLeft, spelledAs_binary _, spelledAs_placed ihRight⟩

end Node

/-- Tokens that are spelled one by one are spelled in a row. -/
theorem exists_pieces {kinds : List TokenKind}
    (each : ∀ kind ∈ kinds, ∃ chars, kind.SpelledAs chars) :
    ∃ pieces, List.Forall₂ TokenKind.SpelledAs kinds pieces := by
  induction kinds with
  | nil => exact ⟨[], .nil⟩
  | cons kind kinds ih =>
    rw [List.forall_mem_cons] at each
    obtain ⟨⟨chars, one⟩, others⟩ := each
    obtain ⟨pieces, all⟩ := ih others
    exact ⟨chars :: pieces, .cons one all⟩

namespace Machine

section Single

variable {source : Source} {span : Span} {node : Node} {machine : Machine} {scope : ScopeId}
  {reach : Nat} {state : State}

/-- A program of one statement that has a value ends with the list of that value. -/
theorem runIn_of_value {value : Value} (program : source.program = .ok (.sequence span [node]))
    (valued : evaluate reach node (.ofProgram machine.globals scope) machine.state =
      .value value state) :
    ∃ list next, machine.runIn (reach + 1) source scope = some (.ok (.list list), next) ∧
      next.state.store.elements list = #[value] := by
  have row : Eval.values (evaluate reach) (.ofProgram machine.globals scope) [node] machine.state =
      .value [value] state := by
    simp only [Eval.values, Action.bind_apply, valued, Action.pure_apply]
  rw [runIn_of_statements program]
  exact ⟨_, _, ended_makeList machine.globals List.toArray row, Store.elements_addList ..⟩

/-- A program of one statement that fails ends with the error. -/
theorem runIn_of_failure {error : EvalError}
    (program : source.program = .ok (.sequence span [node]))
    (failed : evaluate reach node (.ofProgram machine.globals scope) machine.state =
      .exit (.failed error) state) :
    machine.runIn (reach + 1) source scope =
      some (.error (.failed error), ⟨state, machine.globals⟩) := by
  rw [runIn_of_statements program]
  simp only [Eval.list, Eval.values, Action.settle, Action.bind_apply, failed]
  rfl

end Single

/--
Integer expressions compute exactly. Written out with parentheses where they are needed, an
expression is cut into its tokens, and whatever text has these tokens is the program of that
expression. If all values in it fit, its run yields the list of its exact value. And if the first
operation, from left to right, whose value does not exist or does not fit is a remainder by zero,
its run fails at the divisor.
-/
theorem run_arithmetic {node : Node} (arithmetic : node.IsArithmetic) :
    (∃ pieces, List.Forall₂ TokenKind.SpelledAs node.shown pieces ∧ ∀ name, ∃ tokens,
      ({ name, text := String.ofList (spaced pieces) } : Source).tokens = .ok tokens ∧
        tokens.map Token.kind = node.shown ++ [.endOfText]) ∧
    ∀ (source : Source) (tokens : List Token), source.tokens = .ok tokens →
      tokens.map Token.kind = node.shown ++ [.endOfText] →
      ∃ span result, source.program = .ok (.sequence span [result]) ∧ result.Alike node ∧
        ∀ (machine : Machine) (reach : Nat), node.operations.length < reach →
          ((∀ part ∈ node.operations, part.Fits) → ∃ list next word,
            machine.run reach source = some (.ok (.list list), next) ∧
              next.state.store.elements list = #[.number (.int word)] ∧
              node.exactValue? = some word.toInt) ∧
          ∀ place site left right, node.operations[place]? = some (.binary site .rem left right) →
            right.exactValue? = some 0 → (∀ part ∈ node.operations.take place, part.Fits) →
              ∃ site' left' right' error next,
                result.operations[place]? = some (.binary site' .rem left' right') ∧
                  machine.run reach source = some (.error (.failed error), next) ∧
                  error.cause = .operation .divisionByZero ∧ error.span = right'.span := by
  constructor
  · -- The written form has the tokens of the expression, with a blank behind each.
    obtain ⟨pieces, spelled⟩ := exists_pieces arithmetic.spelledAs
    refine ⟨pieces, spelled, fun name => ?_⟩
    unfold Source.tokens
    rw [String.toList_ofList]
    exact tokensFrom_spaced _ spelled .start
  · intro source tokens cut written
    obtain ⟨span, result, parsed, alike⟩ := arithmetic.isExpression.grouped.2 tokens written
    have program : source.program = .ok (.sequence span [result]) :=
      Source.program_eq_ok.mpr ⟨tokens, cut, parsed⟩
    refine ⟨span, result, program, alike, ?_⟩
    intro machine reach deep
    obtain ⟨reach, rfl⟩ : ∃ less, reach = less + 1 := ⟨reach - 1, by omega⟩
    -- What was parsed is the expression but for its ranges, so it has the same operations.
    have parts := arithmetic.operations_alike alike
    have shallow : result.operations.length ≤ reach := by
      rw [parts.length_eq]
      omega
    have arithmetic' := arithmetic.of_alike alike
    rw [run_eq_runIn]
    generalize machine.addScope machine.globals = opened
    obtain ⟨scope, started⟩ := opened
    constructor
    · intro fits
      obtain ⟨word, exact, valued⟩ := arithmetic'.evaluate_exact (Node.fits_of_alike parts fits)
        shallow (.ofProgram started.globals scope) started.state
      obtain ⟨list, next, ended, elements⟩ := runIn_of_value program valued
      exact ⟨list, next, word, ended, elements, Node.exactValue?_of_alike alike ▸ exact⟩
    · -- The remainder by zero stands at the same place of the parsed expression.
      intro place site left right found zero fits
      obtain ⟨part, found', remainder⟩ := Node.getElem?_of_alike parts found
      cases remainder with
      | @binary site' _ _ left' _ right' _ ranges alikeLeft alikeRight =>
        have zero' : right'.exactValue? = some 0 := by
          rw [Node.exactValue?_of_alike alikeRight, zero]
        have fits' := Node.fits_of_alike (List.forall₂_take place parts) fits
        have failed := arithmetic'.evaluate_rem_zero found' zero' fits' shallow
          (.ofProgram started.globals scope) started.state
        exact ⟨site', left', right', _, _, found', runIn_of_failure program failed, rfl, rfl⟩

/-- The tokens of a text, if it has these. -/
theorem exists_tokens {source : Source} {kinds : List TokenKind}
    (check : source.tokens.toOption.map (·.map Token.kind) = some kinds) :
    ∃ tokens, source.tokens = .ok tokens ∧ tokens.map Token.kind = kinds := by
  cases cut : source.tokens with
  | error error => simp [cut, Except.toOption] at check
  | ok tokens =>
    rw [cut] at check
    exact ⟨tokens, rfl, Option.some.inj check⟩

/-- The least integer, which is no literal: the greatest one, negated, less one. -/
def leastInteger : Node :=
  .binary default .sub (.unary default .negate (.int default 9223372036854775807)) (.int default 1)

/-- A sum with a remainder by a difference that is zero. -/
def remainderByZero : Node :=
  .binary default .add (.int default 1)
    (.binary default .rem (.int default 5) (.binary default .sub (.int default 3) (.int default 3)))

/-- The least integer is computed exactly, and the remainder fails at the difference. -/
theorem run_arithmetic_bounds :
    let machine := fresh (.prepared [] [] .gibibyte .none)
    leastInteger.IsArithmetic ∧ remainderByZero.IsArithmetic ∧
      (∃ list next, machine.run 9 ⟨"main", "-9223372036854775807 - 1"⟩ =
          some (.ok (.list list), next) ∧
        next.state.store.elements list = #[.number (.int Int64.minValue)]) ∧
      ∃ error next, machine.run 9 ⟨"main", "1 + 5 % (3 - 3)"⟩ =
          some (.error (.failed error), next) ∧
        error.cause = .operation .divisionByZero := by
  intro machine
  have least : leastInteger.IsArithmetic :=
    .binary (by decide) (.unary (.int (by decide))) (.int (by decide))
  have remainder : remainderByZero.IsArithmetic :=
    .binary (by decide) (.int (by decide)) (.binary (by decide) (.int (by decide))
      (.binary (by decide) (.int (by decide)) (.int (by decide))))
  refine ⟨least, remainder, ?_, ?_⟩
  · obtain ⟨tokens, cut, written⟩ := exists_tokens
      (by decide +kernel : (Source.tokens ⟨"main", "-9223372036854775807 - 1"⟩).toOption.map
        (·.map Token.kind) = some (leastInteger.shown ++ [.endOfText]))
    obtain ⟨_, _, _, _, runs⟩ := (run_arithmetic least).2 _ tokens cut written
    obtain ⟨list, next, word, ended, elements, exact⟩ :=
      (runs machine 9 (by decide)).1 (by decide)
    have same : word = Int64.minValue := by
      rw [← Int64.toInt_inj]
      have value : leastInteger.exactValue? = some Int64.minValue.toInt := by decide
      exact Option.some.inj (exact.symm.trans value)
    exact ⟨list, next, ended, same ▸ elements⟩
  · obtain ⟨tokens, cut, written⟩ := exists_tokens
      (by decide +kernel : (Source.tokens ⟨"main", "1 + 5 % (3 - 3)"⟩).toOption.map
        (·.map Token.kind) = some (remainderByZero.shown ++ [.endOfText]))
    obtain ⟨_, _, _, _, runs⟩ := (run_arithmetic remainder).2 _ tokens cut written
    obtain ⟨_, _, _, error, next, _, failed, cause, _⟩ :=
      (runs machine 9 (by decide)).2 5 default _ _ rfl (by decide) (by decide)
    exact ⟨error, next, failed, cause⟩

end Machine

end Scriptlet
